import MxlUtils.Seccrypto.Sources

/- What an accepted wrap, unwrap or macgen request carries. Each source sets its flag and
   no flag is ever cleared, so a block has one key flag and one input flag when the
   sources after each letter are all of one kind; the pointers then belong to these
   flags, since each is set together with its flag. -/
namespace Seccrypto
open CString Getopt

variable {h : Header} {e : Env} {B : Bits} {opts : List Scanned} {asset : Word → Option Bytes} {s : SourceState}
variable {letter : Char} {k : Kind} {flags size : Nat} {p : Ptr} {late : Bool} {letters : List Char}

/-- The file or the string that was given after the letter. -/
def Given (e : Env) (opts : List Scanned) (letter : Char) (b : Bytes) : Prop :=
  ∃ arg, (letter, 'f', arg) ∈ pairs '0' opts ∧ e.file (arg.take 199) = some b ∨
    (letter, 's', arg) ∈ pairs '0' opts ∧ b = bytes arg

/-- The length of every file fits in 32 bits. -/
def Env.Small (e : Env) : Prop := ∀ name b, e.file name = some b → b.length < 2 ^ 32

/-- One flag is set for the letter, and the pointer is what this flag says: nothing for an asset,
the parameters of an object that was opened, or the data that was given with its size. -/
structure Belongs (B : Bits) (e : Env) (opts : List Scanned) (letter : Char) (flags : Nat) (p : Ptr) (size : Nat) :
    Prop where
  one : ∃ k, B.Set flags letter k ∧ ∀ k', B.Set flags letter k' → k' = k
  null : p = .null ↔ B.Set flags letter .asset
  stored : B.Set flags letter .stored → ∃ name config q, fillSecureStorageDetails e name config = some q ∧ p = .sst q
  data : B.Set flags letter .data → ∃ b, Given e opts letter b ∧ p = .data b ∧ size = b.length

theorem GivenData.given {b : Bytes} (hb : GivenData e opts letter b) (hsmall : e.Small) : Given e opts letter b := by
  obtain ⟨arg, ⟨harg, hread⟩ | hstring⟩ := hb
  · refine ⟨arg, .inl ⟨harg, ?_⟩⟩
    rw [readFile] at hread
    cases hfile : e.file (arg.take 199) with
    | none => simp [hfile] at hread
    | some content =>
      have hlength : content.length % 2 ^ 32 = content.length := Nat.mod_eq_of_lt (hsmall _ _ hfile)
      simp only [hfile, hlength, List.take_length] at hread
      split at hread
      · cases hread
      · split at hread
        · cases hread
        · exact hread
  · exact ⟨arg, .inr hstring⟩

/-- A pointer that is set, or an asset, has the only flag of its letter. -/
theorem belongs_of_ptrOk (hp : PtrOk B e opts (fun _ => none) letter flags p size) (hsmall : e.Small)
    (hflags : ∀ k, B.Set flags letter k → HasSource opts letter k) (hone : OneKind opts letter)
    (hsome : p ≠ .null ∨ B.Set flags letter .asset)
    (hdata : ∃ i, B.bit letter .data = some i) : Belongs B e opts letter flags p size := by
  obtain ⟨j, hj⟩ := hdata
  have hsame : ∀ {k k'}, B.Set flags letter k → B.Set flags letter k' → k' = k :=
    fun hk hk' => hone _ _ (hflags _ hk') (hflags _ hk)
  have hnot : ∀ {k k'}, B.Set flags letter k → k' ≠ k → ¬B.Set flags letter k' :=
    fun hk hne hk' => hne (hsame hk hk')
  cases p with
  | null =>
    have hset : B.Set flags letter .asset := hsome.resolve_left (fun hne => hne rfl)
    exact {
      one := ⟨_, hset, fun _ hk' => hsame hset hk'⟩
      null := ⟨fun _ => hset, fun _ => rfl⟩
      stored := fun hk => (hnot hset (by decide) hk).elim
      data := fun hk => (hnot hset (by decide) hk).elim }
  | data b =>
    rcases hp with ⟨hsize, -, ⟨hshown, hgiven⟩ | ⟨-, arg, -, hnone⟩⟩
    · have hset := hshown.set hj
      exact {
        one := ⟨_, hset, fun _ hk' => hsame hset hk'⟩
        null := ⟨fun hc => (Ptr.noConfusion hc), fun hk => (hnot hset (by decide) hk).elim⟩
        stored := fun hk => (hnot hset (by decide) hk).elim
        data := fun _ => ⟨b, hgiven.given hsmall, rfl, hsize⟩ }
    · cases hnone
  | sst q =>
    obtain ⟨-, hset, name, config, hopened⟩ := hp
    exact {
      one := ⟨_, hset, fun _ hk' => hsame hset hk'⟩
      null := ⟨fun hc => (Ptr.noConfusion hc), fun hk => (hnot hset (by decide) hk).elim⟩
      stored := fun _ => ⟨name, config, q, hopened, rfl⟩
      data := fun hk => (hnot hset (by decide) hk).elim }
  | fresh n => exact hp.elim

/-! ## The end of a loop -/

theorem going_start (outputFname : List Char) (h0 : '0' ∉ letters) :
    Going B e opts asset late letters { outputFname := outputFname } opts where
  sound := sound_start outputFname
  place := ⟨fun hin => (h0 hin).elim, fun hn => absurd hn (by decide : ('0' : Char) ≠ 'n')⟩
  rest := fun _ ho => ho

theorem wrap_sound (hB : B.table = h.wrapTable) {outputFname : List Char}
    (hok : (scanLoop (wrapStep h e) { outputFname := outputFname } opts).ok = true) :
    Sound B e opts (fun _ => none) (scanLoop (wrapStep h e) { outputFname := outputFname } opts).state :=
  (scanLoop_inv (fun _ _ _ _ hg hok => wrapStep_going hB hg hok) (going_start outputFname (by decide)) hok).sound

theorem unwrap_sound (hB : B.table = h.unwrapTable)
    (hok : (scanLoop (unwrapStep h e) { outputFname := [] } opts).ok = true) :
    Sound B e opts (fun _ => none) (scanLoop (unwrapStep h e) { outputFname := [] } opts).state :=
  (scanLoop_inv (fun _ _ _ _ hg hok => unwrapStep_going hB hg hok) (going_start [] (by decide)) hok).sound

theorem macgen_sound (hB : B.table = h.macgenTable)
    (hok : (scanLoop (macgenStep h e) { outputFname := [] } opts).ok = true) :
    Sound B e opts (fun arg => some (otpNumber h arg)) (scanLoop (macgenStep h e) { outputFname := [] } opts).state :=
  (scanLoop_inv (fun _ _ _ _ hg hok => macgenStep_going hB hg hok) (going_start [] (by decide)) hok).sound

/-! ## The blocks -/

theorem PtrOk.size_ne (hp : PtrOk B e opts asset letter flags p size) (hne : p ≠ .null) : size ≠ 0 := by
  cases p with
  | null => exact (hne rfl).elim
  | data b => exact hp.2.1
  | sst q => exact hp.1
  | fresh n => exact hp.elim

/-- What wrap carries when the sources of the key and of the input are each of one kind. -/
theorem wrap_belongs (hB : B.table = h.wrapTable) (hsmall : e.Small) {outputFname : List Char} {w : WrapUnwrap}
    {name : Word} (hw : (parseWrapOptions h e outputFname opts).handed = some (.wrap w name)) (hk : OneKind opts 'k')
    (hi : OneKind opts 'i') (hsize : w.inputSize + 8 < 2 ^ 32) :
    Belongs B e opts 'k' w.flags w.key w.keySize ∧ Belongs B e opts 'i' w.flags w.input w.inputSize ∧
      w.outputSize = w.inputSize + 8 := by
  have hbit := fun letter k => B.bit_of_table hB letter k
  simp only [parseWrapOptions] at hw
  split at hw
  · cases hw
  · rename_i hok
    have hs := wrap_sound hB (by simpa using hok)
    generalize (scanLoop (wrapStep h e) { outputFname := outputFname } opts).state = s at hw hs
    split at hw
    · cases hw
    · rename_i hinput
      split at hw
      · cases hw
      · rename_i hkey
        cases hw
        have hsome : s.key ≠ .null ∨ B.Set s.flags 'k' .asset := by
          by_cases hnull : s.key = .null
          · refine .inr ⟨h.wrapKeyTeeAsset, hbit 'k' .asset, ?_⟩
            simpa using fun hunset => hkey ⟨hnull, hunset⟩
          · exact .inl hnull
        have hne := hs.input.size_ne hinput
        refine ⟨belongs_of_ptrOk hs.key hsmall (hs.flags 'k') hk hsome ⟨_, hbit 'k' .data⟩,
          belongs_of_ptrOk hs.input hsmall (hs.flags 'i') hi (.inl hinput) ⟨_, hbit 'i' .data⟩, ?_⟩
        change (if s.inputSize ≠ 0 then (s.inputSize + 8) % 2 ^ 32 else 0) = s.inputSize + 8
        rw [if_pos hne]
        exact Nat.mod_eq_of_lt hsize

theorem Belongs.congr {flags' : Nat} (hb : Belongs B e opts letter flags p size)
    (hflags : ∀ k, B.Set flags' letter k ↔ B.Set flags letter k) : Belongs B e opts letter flags' p size where
  one := by simpa only [hflags] using hb.one
  null := by simpa only [hflags] using hb.null
  stored := by simpa only [hflags] using hb.stored
  data := by simpa only [hflags] using hb.data

/-- The flag of the output is none of another letter. -/
theorem set_outputBuffer {i : Nat} (hi : B.bit 'o' .data = some i) (hne : letter ≠ 'o') (k : Kind) :
    B.Set (flags ||| 1 <<< i) letter k ↔ B.Set flags letter k := by
  have hbit : ∀ j, B.bit letter k = some j → (flags ||| 1 <<< i).testBit j = flags.testBit j := by
    intro j hj
    have hij : i ≠ j := by
      rintro rfl
      exact hne (B.inj hj hi).1
    rw [Nat.testBit_or, Nat.one_shiftLeft, Nat.testBit_two_pow]
    simp [hij]
  constructor
  · rintro ⟨j, hj, hset⟩
    exact ⟨j, hj, hbit j hj ▸ hset⟩
  · rintro ⟨j, hj, hset⟩
    exact ⟨j, hj, (hbit j hj).symm ▸ hset⟩

/-- What unwrap carries, if its input is long enough. -/
theorem unwrap_belongs (hB : B.table = h.unwrapTable) (hsmall : e.Small) {w : WrapUnwrap}
    (hw : (parseUnwrapOptions h e opts).handed = some (.unwrap w)) (hk : OneKind opts 'k')
    (hi : OneKind opts 'i') (hsize : 8 ≤ w.inputSize) (hlt : w.inputSize < 2 ^ 32) :
    Belongs B e opts 'k' w.flags w.key w.keySize ∧ Belongs B e opts 'i' w.flags w.input w.inputSize ∧
      w.outputSize = w.inputSize - 8 := by
  have hbit := fun letter k => B.bit_of_table hB letter k
  simp only [parseUnwrapOptions] at hw
  split at hw
  · cases hw
  · rename_i hok
    have hs := unwrap_sound hB (by simpa using hok)
    generalize (scanLoop (unwrapStep h e) { outputFname := [] } opts).state = s at hw hs
    split at hw
    · cases hw
    · rename_i hinput
      split at hw
      · cases hw
      · rename_i hkey
        cases hw
        have hsome : s.key ≠ .null ∨ B.Set s.flags 'k' .asset := by
          by_cases hnull : s.key = .null
          · refine .inr ⟨h.unwrapKeyOtp, hbit 'k' .asset, ?_⟩
            simpa using fun hunset => hkey ⟨hnull, hunset⟩
          · exact .inl hnull
        have hkeyBelongs := belongs_of_ptrOk hs.key hsmall (hs.flags 'k') hk hsome ⟨_, hbit 'k' .data⟩
        have hinputBelongs := belongs_of_ptrOk hs.input hsmall (hs.flags 'i') hi (.inl hinput) ⟨_, hbit 'i' .data⟩
        have hflags : ∀ letter, letter ≠ 'o' → ∀ k, B.Set (if (!(s.flags.testBit h.unwrapOutputSsHandle ||
            s.flags.testBit h.unwrapOutputTeeAsset)) = true then s.flags ||| 1 <<< h.unwrapOutputBuffer else s.flags)
              letter k ↔ B.Set s.flags letter k := by
          intro letter hne k
          split
          · exact set_outputBuffer (hbit 'o' .data) hne k
          · exact Iff.rfl
        refine ⟨hkeyBelongs.congr (hflags 'k' (by decide)), hinputBelongs.congr (hflags 'i' (by decide)), ?_⟩
        simp only at hsize hlt ⊢
        omega

theorem PtrOk.exists_set (hp : PtrOk B e opts asset letter flags p size) (hne : p ≠ .null)
    (hdata : ∃ i, B.bit letter .data = some i) (hasset : ∃ i, B.bit letter .asset = some i) :
    ∃ k, B.Set flags letter k := by
  obtain ⟨i, hi⟩ := hdata
  obtain ⟨j, hj⟩ := hasset
  cases p with
  | null => exact (hne rfl).elim
  | data b => exact hp.2.2.elim (fun hd => ⟨_, hd.1.set hi⟩) fun ha => ⟨_, ha.1.set hj⟩
  | sst q => exact ⟨_, hp.2.1⟩
  | fresh n => exact hp.elim

/-- Without a flag for objects, the pointer is to data. -/
theorem PtrOk.data_of_none (hp : PtrOk B e opts (fun _ => none) letter flags p size)
    (hnone : B.bit letter .stored = none) (hne : p ≠ .null) :
    ∃ b, p = .data b ∧ GivenData e opts letter b ∧ size = b.length := by
  cases p with
  | null => exact (hne rfl).elim
  | data b =>
    rcases hp.2.2 with ⟨-, hgiven⟩ | ⟨-, arg, -, hasset⟩
    · exact ⟨b, rfl, hgiven, hp.1⟩
    · cases hasset
  | sst q =>
    obtain ⟨i, hi, -⟩ := hp.2.1
    cases hnone.symm.trans hi
  | fresh n => exact hp.elim

/-- What macgen carries: the number of an asset is its lowest byte. -/
theorem macgen_belongs (hB : B.table = h.macgenTable) (hsmall : e.Small) {g : MacGen}
    (hg : (parseMacgenOptions h e opts).handed = some (.macGen g)) (hk : OneKind opts 'k') :
    (∃ k, B.Set g.flags 'k' k ∧ ∀ k', B.Set g.flags 'k' k' → k' = k) ∧
      (∃ b, Given e opts 'i' b ∧ g.input = .data b ∧ g.inputSize = b.length) ∧
      (B.Set g.flags 'k' .asset → ∃ arg, ('k', 't', arg) ∈ pairs '0' opts ∧ g.macKey = .data (otpNumber h arg) ∧
        g.keySize = 4) := by
  have hbit := fun letter k => B.bit_of_table hB letter k
  simp only [parseMacgenOptions] at hg
  split at hg
  · cases hg
  · rename_i hok
    have hs := macgen_sound hB (by simpa using hok)
    generalize (scanLoop (macgenStep h e) { outputFname := [] } opts).state = s at hg hs
    split at hg
    · cases hg
    · split at hg
      · cases hg
      · rename_i hkey
        split at hg
        · cases hg
        · rename_i hinput
          split at hg
          · cases hg
          · cases hg
            obtain ⟨hne, -⟩ := not_or.mp hkey
            obtain ⟨hne', -⟩ := not_or.mp hinput
            have hsame : ∀ {k k'}, B.Set s.flags 'k' k → B.Set s.flags 'k' k' → k' = k :=
              fun hset hset' => hk _ _ (hs.flags _ _ hset') (hs.flags _ _ hset)
            have hi : B.bit 'i' .stored = none := hbit 'i' .stored
            refine ⟨?_, ?_, fun hasset => ?_⟩
            · obtain ⟨k, hset⟩ := hs.key.exists_set hne ⟨_, hbit 'k' .data⟩ ⟨_, hbit 'k' .asset⟩
              exact ⟨k, hset, fun _ hset' => hsame hset hset'⟩
            · rcases hs.input.data_of_none hi hne' with ⟨b, hb, hgiven, hsize⟩
              exact ⟨b, hgiven.given hsmall, hb, hsize⟩
            · have hp := hs.key
              generalize s.key = p at hp hne
              cases p with
              | null => exact (hne rfl).elim
              | data b =>
                obtain ⟨hsize, -, ⟨hshown, -⟩ | ⟨-, arg, harg, hb⟩⟩ := hp
                · cases hsame hasset (hshown.set (hbit 'k' .data))
                · rw [← Option.some.inj hb] at hsize ⊢
                  exact ⟨arg, harg, rfl, hsize⟩
              | sst q => cases hsame hasset hp.2.1
              | fresh n => exact hp.elim

theorem leNumber_otpNumber {arg : Word} (harg : strtoul h.longBits arg < 256) :
    leNumber (otpNumber h arg) = strtoul h.longBits arg := by
  simp [leNumber, otpNumber, Nat.mod_eq_of_lt harg]

/-- One file and one object. -/
def sampleEnv : Env where
  file name := if name = ['f'] then some [1, 2, 3, 4, 5, 6, 7, 8, 9] else none
  mem := ⟨fun _ => true, fun _ => 0⟩
  createOpen name _ _ := if name = ['o'] then some 1 else none
  stored _ := some 32
  keyStored _ _ _ _ := true
  file_nil := rfl

def helpWrapBits : Bits := ⟨Header.help.wrapTable, by decide⟩

theorem sampleEnv_small : sampleEnv.Small := by
  intro name b hb
  simp only [sampleEnv] at hb
  split at hb
  · cases hb
    decide
  · cases hb

/-- Accepted requests are coherent when the sources after each letter are of one kind and the sizes
do not leave the range of their types. -/
theorem requests_coherent {Bw Bu Bm : Bits} (hw : Bw.table = h.wrapTable) (hu : Bu.table = h.unwrapTable)
    (hm : Bm.table = h.macgenTable) (hsmall : e.Small) (hk : OneKind opts 'k') (hi : OneKind opts 'i') :
    (∀ outputFname w name, (parseWrapOptions h e outputFname opts).handed = some (.wrap w name) →
      w.inputSize + 8 < 2 ^ 32 → Belongs Bw e opts 'k' w.flags w.key w.keySize ∧
        Belongs Bw e opts 'i' w.flags w.input w.inputSize ∧ w.outputSize = w.inputSize + 8) ∧
    (∀ w, (parseUnwrapOptions h e opts).handed = some (.unwrap w) → 8 ≤ w.inputSize → w.inputSize < 2 ^ 32 →
      Belongs Bu e opts 'k' w.flags w.key w.keySize ∧ Belongs Bu e opts 'i' w.flags w.input w.inputSize ∧
        w.outputSize = w.inputSize - 8) ∧
    (∀ g, (parseMacgenOptions h e opts).handed = some (.macGen g) →
      (∃ k, Bm.Set g.flags 'k' k ∧ ∀ k', Bm.Set g.flags 'k' k' → k' = k) ∧
        (∃ b, Given e opts 'i' b ∧ g.input = .data b ∧ g.inputSize = b.length) ∧
        (Bm.Set g.flags 'k' .asset → (∀ arg, ('k', 't', arg) ∈ pairs '0' opts → strtoul h.longBits arg < 256) →
          ∃ arg b, ('k', 't', arg) ∈ pairs '0' opts ∧ g.macKey = .data b ∧ g.keySize = 4 ∧
            leNumber b = strtoul h.longBits arg)) := by
  refine ⟨?_, ?_, ?_⟩
  · intro outputFname w name haccepted hsize
    exact wrap_belongs hw hsmall haccepted hk hi hsize
  · intro w haccepted hsize hlt
    exact unwrap_belongs hu hsmall haccepted hk hi hsize hlt
  · intro g haccepted
    obtain ⟨hone, hinput, hasset⟩ := macgen_belongs hm hsmall haccepted hk
    refine ⟨hone, hinput, fun hset hbyte => ?_⟩
    obtain ⟨arg, harg, hkey, hsize⟩ := hasset hset
    exact ⟨arg, _, harg, hkey, hsize, leNumber_otpNumber (hbyte arg harg)⟩

/-- `wrap -k -f f -i -f f` -/
def fileKey : List Scanned := [some ('k', []), some ('f', ['f']), some ('i', []), some ('f', ['f'])]

theorem fileKey_oneKind : OneKind fileKey 'k' ∧ OneKind fileKey 'i' := by
  have hfile : ∀ letter k, letter = 'k' ∨ letter = 'i' → HasSource fileKey letter k → k = .data := by
    rintro letter k hletter ⟨c, arg, hmem, hkind⟩
    have hc : c = 'f' := by
      rcases hletter with rfl | rfl
      · simp [fileKey, pairs] at hmem
        exact hmem.1
      · simp [fileKey, pairs] at hmem
        exact hmem.1
    subst hc
    exact (Option.some.inj hkind).symm
  constructor
  · intro k k' hk hk'
    exact (hfile 'k' k (.inl rfl) hk).trans (hfile 'k' k' (.inl rfl) hk').symm
  · intro k k' hk hk'
    exact (hfile 'i' k (.inr rfl) hk).trans (hfile 'i' k' (.inr rfl) hk').symm

theorem requests_coherent_fileKey :
    Belongs helpWrapBits sampleEnv fileKey 'k' 18 (.data [1, 2, 3, 4, 5, 6, 7, 8, 9]) 9 ∧
      Belongs helpWrapBits sampleEnv fileKey 'i' 18 (.data [1, 2, 3, 4, 5, 6, 7, 8, 9]) 9 ∧ 17 = 9 + 8 :=
  (requests_coherent (show helpWrapBits.table = Header.help.wrapTable from rfl)
    (show (Bits.mk Header.help.unwrapTable (by decide)).table = Header.help.unwrapTable from rfl)
    (show (Bits.mk Header.help.macgenTable (by decide)).table = Header.help.macgenTable from rfl) sampleEnv_small
    fileKey_oneKind.1 fileKey_oneKind.2).1 [] ⟨18, _, 9, _, 9, .fresh 17, 17⟩ [] rfl (by decide)

/-! ## A key from the secure storage -/

/-- `wrap -k -n o -c 1 -i -f f` -/
def storedKey : List Scanned :=
  [some ('k', []), some ('n', ['o']), some ('c', ['1']), some ('i', []), some ('f', ['f'])]

/-- The key in the storage is handed over as the parameters of its object, not as NULL. -/
theorem storedKey_not_null :
    ¬∀ (e : Env) (opts : List Scanned) (outputFname : List Char) (w : WrapUnwrap) (name : Word),
      (parseWrapOptions .help e outputFname opts).handed = some (.wrap w name) →
        (w.key = .null ↔ helpWrapBits.Set w.flags 'k' .asset ∨ helpWrapBits.Set w.flags 'k' .stored) := by
  intro hclaim
  have hiff := hclaim sampleEnv storedKey [] _ _ rfl
  have hnull := hiff.mpr (.inr ⟨0, rfl, by decide⟩)
  cases hnull

end Seccrypto
