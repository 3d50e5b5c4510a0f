import MxlUtils.Seccrypto.KeyParsers
import Mathlib.Data.List.Nodup

/- The sources of keys and inputs in an argument vector, and what the loops of wrap,
   unwrap and macgen keep: every flag that is set goes back to a source after its letter,
   and every pointer that is set has its flag and goes back to such a source too. -/
namespace Seccrypto
open CString Getopt

/-! ## Sources in an argument vector -/

/-- The options, each with the letter of the option before it. -/
def pairs : Char → List Scanned → List (Char × Char × Word)
  | prev, some (c, arg) :: opts => (prev, c, arg) :: pairs c opts
  | _, _ => []

/-- The kind of a source: -n and -c name an object, -f and -s give data, -t an asset. -/
inductive Kind where
  | stored
  | data
  | asset
deriving DecidableEq

def kind : Char → Option Kind
  | 'n' => some .stored
  | 'f' => some .data
  | 's' => some .data
  | 't' => some .asset
  | _ => none

/-- A source of that kind follows the letter. -/
def HasSource (opts : List Scanned) (letter : Char) (k : Kind) : Prop :=
  ∃ c arg, (letter, c, arg) ∈ pairs '0' opts ∧ kind c = some k

/-- All sources after the letter are of one kind. -/
def OneKind (opts : List Scanned) (letter : Char) : Prop :=
  ∀ k k', HasSource opts letter k → HasSource opts letter k' → k = k'

/-- The data given after the letter, by a file or as a string. -/
def GivenData (e : Env) (opts : List Scanned) (letter : Char) (b : Bytes) : Prop :=
  ∃ arg, (letter, 'f', arg) ∈ pairs '0' opts ∧ (readFile e (arg.take 199)).1 = some b ∨
    (letter, 's', arg) ∈ pairs '0' opts ∧ b = bytes arg

/-- The number an asset was given as, after the letter. -/
def GivenAsset (opts : List Scanned) (letter : Char) (asset : Word → Option Bytes) (b : Bytes) : Prop :=
  ∃ arg, (letter, 't', arg) ∈ pairs '0' opts ∧ asset arg = some b

/-- The flags of the sources: different ones are different bits. -/
structure Bits where
  table : List ((Char × Kind) × Nat)
  nodup : (table.map Prod.snd).Nodup

def Bits.bit (B : Bits) (letter : Char) (k : Kind) : Option Nat :=
  (B.table.find? fun entry => entry.1 = (letter, k)).map Prod.snd

theorem Bits.bit_of_table (B : Bits) {table : List ((Char × Kind) × Nat)} (hB : B.table = table) (letter : Char) (k : Kind) :
    B.bit letter k = (table.find? fun entry => entry.1 = (letter, k)).map Prod.snd := by
  rw [Bits.bit, hB]

theorem Bits.inj (B : Bits) {letter letter' : Char} {k k' : Kind} {i : Nat} (hk : B.bit letter k = some i)
    (hk' : B.bit letter' k' = some i) : letter = letter' ∧ k = k' := by
  obtain ⟨a, ha, hai⟩ := Option.map_eq_some_iff.mp hk
  obtain ⟨b, hb, hbi⟩ := Option.map_eq_some_iff.mp hk'
  have hsame : a = b :=
    List.inj_on_of_nodup_map B.nodup (List.mem_of_find?_eq_some ha) (List.mem_of_find?_eq_some hb) (hai.trans hbi.symm)
  have hka : a.1 = (letter, k) := by simpa using List.find?_some ha
  have hkb : b.1 = (letter', k') := by simpa using List.find?_some hb
  rw [hsame, hkb] at hka
  obtain ⟨rfl, rfl⟩ := Prod.mk.inj hka
  exact ⟨rfl, rfl⟩

/-- The flag of that source is set. -/
def Bits.Set (B : Bits) (flags : Nat) (letter : Char) (k : Kind) : Prop :=
  ∃ i, B.bit letter k = some i ∧ flags.testBit i = true

/-- The source has no flag, or it is set. -/
def Bits.Shown (B : Bits) (flags : Nat) (letter : Char) (k : Kind) : Prop :=
  ∀ i, B.bit letter k = some i → flags.testBit i = true

/-- A pointer belongs to a flag that is set and to an option of the vector. -/
def PtrOk (B : Bits) (e : Env) (opts : List Scanned) (asset : Word → Option Bytes) (letter : Char) (flags : Nat)
    (p : Ptr) (size : Nat) : Prop :=
  match p with
  | .null => True
  | .data b => size = b.length ∧ size ≠ 0 ∧ (B.Shown flags letter .data ∧ GivenData e opts letter b ∨
      B.Shown flags letter .asset ∧ GivenAsset opts letter asset b)
  | .sst q => size ≠ 0 ∧ B.Set flags letter .stored ∧ ∃ name config, fillSecureStorageDetails e name config = some q
  | .fresh _ => False

/-- Flags and pointers go back to options of the vector. -/
structure Sound (B : Bits) (e : Env) (opts : List Scanned) (asset : Word → Option Bytes) (s : SourceState) : Prop where
  flags : ∀ letter k, B.Set s.flags letter k → HasSource opts letter k
  key : PtrOk B e opts asset 'k' s.flags s.key s.keySize
  input : PtrOk B e opts (fun _ => none) 'i' s.flags s.input s.inputSize

/-- `mainOpt` is the letter the options are for. The flag of an object is set by its name, or `late`. -/
structure Place (B : Bits) (opts : List Scanned) (late : Bool) (letters : List Char) (s : SourceState) : Prop where
  letter : s.prev ∈ letters → s.mainOpt = s.prev
  named : s.prev = 'n' → s.mainOpt ∈ letters ∧ HasSource opts s.mainOpt .stored ∧
    (late = false → B.Set s.flags s.mainOpt .stored)

variable {h : Header} {e : Env} {B : Bits} {opts : List Scanned} {asset : Word → Option Bytes} {s : SourceState}
variable {letter : Char} {k : Kind} {i flags flags' size : Nat} {p : Ptr} {letters : List Char} {late : Bool}

/-! ## One more flag -/

theorem testBit_setFlag (s : SourceState) (bit i : Nat) :
    (s.setFlag bit).flags.testBit i = (s.flags.testBit i || decide (bit = i)) := by
  rw [SourceState.setFlag, Nat.testBit_or, Nat.one_shiftLeft, Nat.testBit_two_pow]

theorem Bits.Shown.setFlag (hset : B.Shown s.flags letter k) (bit : Nat) : B.Shown (s.setFlag bit).flags letter k := by
  intro i hi
  rw [testBit_setFlag, hset i hi, Bool.true_or]

theorem Bits.shown_setFlag (hi : B.bit letter k = some i) (s : SourceState) : B.Shown (s.setFlag i).flags letter k := by
  intro j hj
  rw [hi] at hj
  rw [testBit_setFlag, Option.some.inj hj]
  simp

theorem Bits.Set.setFlag (hset : B.Set s.flags letter k) (bit : Nat) : B.Set (s.setFlag bit).flags letter k := by
  obtain ⟨i, hi, hbit⟩ := hset
  exact ⟨i, hi, by rw [testBit_setFlag, hbit, Bool.true_or]⟩

theorem Bits.Shown.set (hshown : B.Shown flags letter k) (hi : B.bit letter k = some i) : B.Set flags letter k :=
  ⟨i, hi, hshown i hi⟩

theorem PtrOk.setFlag (hp : PtrOk B e opts asset letter s.flags p size) (bit : Nat) :
    PtrOk B e opts asset letter (s.setFlag bit).flags p size := by
  cases p with
  | null => trivial
  | data b =>
    exact ⟨hp.1, hp.2.1, hp.2.2.imp (fun hd => ⟨hd.1.setFlag bit, hd.2⟩) fun ha => ⟨ha.1.setFlag bit, ha.2⟩⟩
  | sst q => exact ⟨hp.1, hp.2.1.setFlag bit, hp.2.2⟩
  | fresh n => exact hp

/-- A flag is set for a source of the vector. -/
theorem Sound.setFlag (hs : Sound B e opts asset s) (hi : B.bit letter k = some i) (hsource : HasSource opts letter k) :
    Sound B e opts asset (s.setFlag i) where
  flags := by
    rintro letter' k' ⟨j, hj, hbit⟩
    rw [testBit_setFlag, Bool.or_eq_true, decide_eq_true_eq] at hbit
    rcases hbit with hbit | rfl
    · exact hs.flags letter' k' ⟨j, hj, hbit⟩
    · obtain ⟨rfl, rfl⟩ := B.inj hi hj
      exact hsource
  key := hs.key.setFlag i
  input := hs.input.setFlag i

theorem Sound.withKey (hs : Sound B e opts asset s) (hp : PtrOk B e opts asset 'k' s.flags p size) :
    Sound B e opts asset (s.setKey p size) :=
  ⟨hs.flags, hp, hs.input⟩

theorem Sound.withInput (hs : Sound B e opts asset s) (hp : PtrOk B e opts (fun _ => none) 'i' s.flags p size) :
    Sound B e opts asset (s.setInput p size) :=
  ⟨hs.flags, hs.key, hp⟩

theorem Sound.keyData {b : Bytes} (hs : Sound B e opts asset s) (hi : B.bit 'k' .data = some i)
    (hsource : HasSource opts 'k' .data) (hgiven : GivenData e opts 'k' b) (hne : b.length ≠ 0) :
    Sound B e opts asset ((s.setKey (.data b) b.length).setFlag i) :=
  (hs.setFlag hi hsource).withKey ⟨rfl, hne, .inl ⟨B.shown_setFlag hi s, hgiven⟩⟩

theorem Sound.inputData {b : Bytes} (hs : Sound B e opts asset s) (hi : B.bit 'i' .data = some i)
    (hsource : HasSource opts 'i' .data) (hgiven : GivenData e opts 'i' b) (hne : b.length ≠ 0) :
    Sound B e opts asset ((s.setInput (.data b) b.length).setFlag i) :=
  (hs.setFlag hi hsource).withInput ⟨rfl, hne, .inl ⟨B.shown_setFlag hi s, hgiven⟩⟩

/-- The start of a loop. -/
theorem sound_start (outputFname : List Char) : Sound B e opts asset { outputFname := outputFname } where
  flags := by
    rintro letter k ⟨i, -, hbit⟩
    simp at hbit
  key := trivial
  input := trivial

/-! ## Data for the key or the input -/

theorem readFile_length {name : Word} {b : Bytes} (hb : (readFile e name).1 = some b) : b.length ≠ 0 := by
  rw [readFile] at hb
  cases hfile : e.file name with
  | none => simp [hfile] at hb
  | some content =>
    simp only [hfile] at hb
    split at hb
    · cases hb
    · rename_i hlen
      split at hb
      · cases hb
      · rw [← Option.some.inj hb, List.length_take]
        have hle := Nat.mod_le content.length (2 ^ 32)
        omega

theorem loadFile_given {arg : Word} {b : Bytes} (harg : (letter, 'f', arg) ∈ pairs '0' opts)
    (hb : (loadFile e arg).1 = some b) : GivenData e opts letter b ∧ b.length ≠ 0 := by
  rw [loadFile] at hb
  split at hb
  · cases hb
  · exact ⟨⟨arg, .inl ⟨harg, hb⟩⟩, readFile_length hb⟩

theorem copyString_given {arg : Word} {b : Bytes} (harg : (letter, 's', arg) ∈ pairs '0' opts)
    (hb : (copyString e arg).1 = some b) : GivenData e opts letter b ∧ b.length ≠ 0 := by
  rw [copyString] at hb
  split at hb
  · cases hb
  · rename_i hne
    split at hb
    · cases hb
    · have hbytes : b = bytes arg := (Option.some.inj hb).symm
      exact ⟨⟨arg, .inr ⟨harg, hbytes⟩⟩, by simpa [hbytes, bytes] using hne⟩

/-- The flags of the data are those of the sources. -/
def SourceFlags.Agree (F : SourceFlags) (B : Bits) : Prop :=
  B.bit 'k' .data = some F.keyBuffer ∧ B.bit 'i' .data = some F.inputBuffer

theorem sound_takeData {F : SourceFlags} {c : Char} {arg : Word} {got : Option Bytes × List Access}
    (hs : Sound B e opts asset s) (hF : F.Agree B) (hprev : s.prev = 'k' ∨ s.prev = 'i')
    (harg : (s.prev, c, arg) ∈ pairs '0' opts) (hc : kind c = some .data)
    (hgiven : ∀ letter b, (letter, c, arg) ∈ pairs '0' opts → got.1 = some b → GivenData e opts letter b ∧ b.length ≠ 0)
    (hok : (s.takeData F c got).ok = true) :
    Sound B e opts asset (s.takeData F c got).state ∧ (s.takeData F c got).state.prev = c := by
  have hsource : HasSource opts s.prev .data := ⟨c, arg, harg, hc⟩
  rw [SourceState.takeData] at hok ⊢
  cases hgot : got.1 with
  | none => simp [hgot, SourceState.stop] at hok
  | some b =>
    obtain ⟨hdata, hne⟩ := hgiven s.prev b harg hgot
    have hs' : Sound B e opts asset { s with dataLen := b.length } := ⟨hs.flags, hs.key, hs.input⟩
    by_cases hk : s.prev = 'k'
    · rw [hk] at hsource hdata
      simp only [hk, if_true]
      refine ⟨?_, rfl⟩
      have hp := hs'.keyData hF.1 hsource hdata hne
      exact ⟨hp.flags, hp.key, hp.input⟩
    · have hi : s.prev = 'i' := hprev.resolve_left hk
      rw [hi] at hsource hdata
      simp only [hk, if_false]
      refine ⟨?_, rfl⟩
      have hp := hs'.inputData hF.2 hsource hdata hne
      exact ⟨hp.flags, hp.key, hp.input⟩

theorem storedObject_opened {name : Word} {config dataLen size : Nat} {q : SstParams}
    (hq : storedObject h e name config dataLen = some (q, size)) :
    size ≠ 0 ∧ ∃ name config, fillSecureStorageDetails e name config = some q := by
  simp only [storedObject] at hq
  split at hq
  · cases hq
  · split at hq
    · cases hq
    · split at hq
      · cases hq
      · split at hq
        · cases hq
        · rename_i sst hfill
          split at hq
          · cases hq
          · rename_i hne
            obtain ⟨rfl, rfl⟩ := Prod.mk.inj (Option.some.inj hq)
            exact ⟨hne, name, config, hfill⟩

/-! ## Steps -/

/-- What the loops keep: the flags and pointers are sound, and the rest of the options follows. -/
structure Going (B : Bits) (e : Env) (opts : List Scanned) (asset : Word → Option Bytes) (late : Bool)
    (letters : List Char) (s : SourceState) (rest : List Scanned) : Prop where
  sound : Sound B e opts asset s
  place : Place B opts late letters s
  rest : ∀ o ∈ pairs s.prev rest, o ∈ pairs '0' opts

/-- The next option is one of the vector, with the letter before it. -/
theorem Going.mem {rest : List Scanned} {c : Char} {arg : Word}
    (hg : Going B e opts asset late letters s (some (c, arg) :: rest)) : (s.prev, c, arg) ∈ pairs '0' opts :=
  hg.rest _ (List.mem_cons_self ..)

/-- After an option that is none of the letters and no name. -/
theorem Going.after {rest : List Scanned} {c : Char} {arg : Word} {s' : SourceState}
    (hg : Going B e opts asset late letters s (some (c, arg) :: rest)) (hs' : Sound B e opts asset s') (hprev : s'.prev = c)
    (hletter : c ∉ letters) (hname : c ≠ 'n') : Going B e opts asset late letters s' rest where
  sound := hs'
  place := ⟨fun hin => (hletter (hprev ▸ hin)).elim, fun hn => (hname (hprev.symm.trans hn)).elim⟩
  rest := fun o ho => hg.rest o (List.mem_cons_of_mem _ (hprev ▸ ho))

/-- After a letter. -/
theorem Going.afterLetter {rest : List Scanned} {c : Char} {arg : Word}
    (hg : Going B e opts asset late letters s (some (c, arg) :: rest)) (hname : c ≠ 'n') :
    Going B e opts asset late letters { s with mainOpt := c, prev := c } rest where
  sound := ⟨hg.sound.flags, hg.sound.key, hg.sound.input⟩
  place := ⟨fun _ => rfl, fun hn => (hname hn).elim⟩
  rest := fun o ho => hg.rest o (List.mem_cons_of_mem _ ho)

/-- After a name, which follows one of the letters. -/
theorem Going.afterName {rest : List Scanned} {arg : Word}
    (hg : Going B e opts asset late letters s (some ('n', arg) :: rest)) (hprev : s.prev = letter)
    (hin : letter ∈ letters) (hi : B.bit letter .stored = some i) (hn : 'n' ∉ letters) :
    Going B e opts asset late letters { { s with name := objectName arg }.setFlag i with prev := 'n' } rest := by
  have hsource : HasSource opts letter .stored := ⟨'n', arg, hprev ▸ hg.mem, rfl⟩
  have hset : Sound B e opts asset (s.setFlag i) := hg.sound.setFlag hi hsource
  have hmain : s.mainOpt = letter := (hg.place.letter (hprev ▸ hin)).trans hprev
  have hshown : B.Set (s.setFlag i).flags s.mainOpt .stored := hmain ▸ (B.shown_setFlag hi s).set hi
  exact {
    sound := ⟨hset.flags, hset.key, hset.input⟩
    place := ⟨fun hc => (hn hc).elim, fun _ => ⟨hmain ▸ hin, hmain ▸ hsource, fun _ => hshown⟩⟩
    rest := fun o ho => hg.rest o (List.mem_cons_of_mem _ ho) }

/-! ## wrap -/

def Header.wrapTable (h : Header) : List ((Char × Kind) × Nat) :=
  [(('k', .stored), h.wrapKeySsHandle), (('k', .data), h.wrapKeyBuffer), (('k', .asset), h.wrapKeyTeeAsset),
    (('i', .stored), h.wrapInputSsHandle), (('i', .data), h.wrapInputBuffer)]

theorem wrapStep_going (hB : B.table = h.wrapTable) {c : Char} {arg : Word} {rest : List Scanned}
    (hg : Going B e opts asset false ['k', 'i'] s (some (c, arg) :: rest)) (hok : (wrapStep h e s c arg).ok = true) :
    Going B e opts asset false ['k', 'i'] (wrapStep h e s c arg).state rest := by
  have hks : B.bit 'k' .stored = some h.wrapKeySsHandle := B.bit_of_table hB _ _
  have hkt : B.bit 'k' .asset = some h.wrapKeyTeeAsset := B.bit_of_table hB _ _
  have his : B.bit 'i' .stored = some h.wrapInputSsHandle := B.bit_of_table hB _ _
  have hF : (wrapFlags h).Agree B := ⟨B.bit_of_table hB _ _, B.bit_of_table hB _ _⟩
  have hs := hg.sound
  generalize hr : wrapStep h e s c arg = r at hok ⊢
  unfold wrapStep at hr
  split at hr
  · subst hr; exact hg.afterLetter (by decide)
  · subst hr; exact hg.afterLetter (by decide)
  · subst hr
    exact hg.after ⟨hs.flags, hs.key, hs.input⟩ rfl (by decide) (by decide)
  · split at hr
    · subst hr; exact hg.afterName ‹_› (by decide) hks (by decide)
    · split at hr
      · subst hr; exact hg.afterName ‹_› (by decide) his (by decide)
      · subst hr; cases hok
  · -- the object is for the letter that the name followed
    split at hr
    · subst hr; cases hok
    · rename_i hprev
      obtain ⟨hmain, -, hshown⟩ := hg.place.named (not_not.mp hprev)
      have hset := hshown rfl
      split at hr
      · subst hr; cases hok
      · rename_i q size hq
        have hopened := storedObject_opened hq
        dsimp only at hr
        split at hr
        · rename_i hk
          subst hr
          have hp : Sound B e opts asset (s.setKey (.sst q) size) := hs.withKey ⟨hopened.1, hk ▸ hset, hopened.2⟩
          exact hg.after ⟨hp.flags, hp.key, hp.input⟩ rfl (by decide) (by decide)
        · rename_i hk
          have hi : s.mainOpt = 'i' := by simpa [hk] using hmain
          subst hr
          have hp : Sound B e opts asset (s.setInput (.sst q) size) := hs.withInput ⟨hopened.1, hi ▸ hset, hopened.2⟩
          exact hg.after ⟨hp.flags, hp.key, hp.input⟩ rfl (by decide) (by decide)
  · split at hr
    · subst hr
      obtain ⟨hs', hprev⟩ := sound_takeData hs hF ‹_› hg.mem rfl (fun _ _ => loadFile_given) hok
      exact hg.after hs' hprev (by decide) (by decide)
    · subst hr; cases hok
  · split at hr
    · subst hr
      obtain ⟨hs', hprev⟩ := sound_takeData hs hF ‹_› hg.mem rfl (fun _ _ => copyString_given) hok
      exact hg.after hs' hprev (by decide) (by decide)
    · subst hr
      exact hg.after ⟨hs.flags, hs.key, hs.input⟩ rfl (by decide) (by decide)
  · split at hr
    · subst hr
      have hsource : HasSource opts 'k' .asset := ⟨'t', arg, ‹s.prev = 'k'› ▸ hg.mem, rfl⟩
      have hp : Sound B e opts asset ((s.setKey .null 0).setFlag h.wrapKeyTeeAsset) :=
        (hs.setFlag hkt hsource).withKey trivial
      exact hg.after ⟨hp.flags, hp.key, hp.input⟩ rfl (by decide) (by decide)
    · subst hr; cases hok
  · subst hr; cases hok

/-! ## unwrap -/

def Header.unwrapTable (h : Header) : List ((Char × Kind) × Nat) :=
  [(('k', .stored), h.unwrapKeySsHandle), (('k', .data), h.unwrapKeyBuffer), (('k', .asset), h.unwrapKeyOtp),
    (('i', .stored), h.unwrapInputSsHandle), (('i', .data), h.unwrapInputBuffer),
    (('o', .stored), h.unwrapOutputSsHandle), (('o', .data), h.unwrapOutputBuffer),
    (('o', .asset), h.unwrapOutputTeeAsset)]

theorem unwrapStep_going (hB : B.table = h.unwrapTable) {c : Char} {arg : Word} {rest : List Scanned}
    (hg : Going B e opts asset false ['k', 'i', 'o'] s (some (c, arg) :: rest))
    (hok : (unwrapStep h e s c arg).ok = true) :
    Going B e opts asset false ['k', 'i', 'o'] (unwrapStep h e s c arg).state rest := by
  have hks : B.bit 'k' .stored = some h.unwrapKeySsHandle := B.bit_of_table hB _ _
  have hkt : B.bit 'k' .asset = some h.unwrapKeyOtp := B.bit_of_table hB _ _
  have his : B.bit 'i' .stored = some h.unwrapInputSsHandle := B.bit_of_table hB _ _
  have hos : B.bit 'o' .stored = some h.unwrapOutputSsHandle := B.bit_of_table hB _ _
  have hot : B.bit 'o' .asset = some h.unwrapOutputTeeAsset := B.bit_of_table hB _ _
  have hF : (unwrapFlags h).Agree B := ⟨B.bit_of_table hB _ _, B.bit_of_table hB _ _⟩
  have hs := hg.sound
  generalize hr : unwrapStep h e s c arg = r at hok ⊢
  unfold unwrapStep at hr
  split at hr
  · subst hr; exact hg.afterLetter (by decide)
  · subst hr; exact hg.afterLetter (by decide)
  · subst hr; exact hg.afterLetter (by decide)
  · split at hr
    · subst hr; exact hg.afterName ‹_› (by decide) hks (by decide)
    · split at hr
      · subst hr; exact hg.afterName ‹_› (by decide) his (by decide)
      · split at hr
        · subst hr; exact hg.afterName ‹_› (by decide) hos (by decide)
        · subst hr; cases hok
  · split at hr
    · subst hr; cases hok
    · rename_i hprev
      obtain ⟨hmain, -, hshown⟩ := hg.place.named (not_not.mp hprev)
      have hset := hshown rfl
      split at hr
      · rename_i hki
        split at hr
        · subst hr; cases hok
        · rename_i q size hq
          have hopened := storedObject_opened hq
          dsimp only at hr
          split at hr
          · rename_i hk
            subst hr
            have hp : Sound B e opts asset (s.setKey (.sst q) size) := hs.withKey ⟨hopened.1, hk ▸ hset, hopened.2⟩
            exact hg.after ⟨hp.flags, hp.key, hp.input⟩ rfl (by decide) (by decide)
          · rename_i hk
            have hi : s.mainOpt = 'i' := hki.resolve_left hk
            subst hr
            have hp : Sound B e opts asset (s.setInput (.sst q) size) := hs.withInput ⟨hopened.1, hi ▸ hset, hopened.2⟩
            exact hg.after ⟨hp.flags, hp.key, hp.input⟩ rfl (by decide) (by decide)
      · -- the object is for the output
        split at hr
        · subst hr; cases hok
        · subst hr
          exact hg.after ⟨hs.flags, hs.key, hs.input⟩ rfl (by decide) (by decide)
  · split at hr
    · subst hr
      obtain ⟨hs', hprev⟩ := sound_takeData hs hF ‹_› hg.mem rfl (fun _ _ => loadFile_given) hok
      exact hg.after hs' hprev (by decide) (by decide)
    · subst hr; cases hok
  · split at hr
    · subst hr
      obtain ⟨hs', hprev⟩ := sound_takeData hs hF ‹_› hg.mem rfl (fun _ _ => copyString_given) hok
      exact hg.after hs' hprev (by decide) (by decide)
    · subst hr
      exact hg.after ⟨hs.flags, hs.key, hs.input⟩ rfl (by decide) (by decide)
  · split at hr
    · subst hr
      have hsource : HasSource opts 'k' .asset := ⟨'t', arg, ‹s.prev = 'k'› ▸ hg.mem, rfl⟩
      have hp : Sound B e opts asset ((s.setKey .null 32).setFlag h.unwrapKeyOtp) :=
        (hs.setFlag hkt hsource).withKey trivial
      exact hg.after ⟨hp.flags, hp.key, hp.input⟩ rfl (by decide) (by decide)
    · split at hr
      · subst hr
        have hsource : HasSource opts 'o' .asset := ⟨'t', arg, ‹s.prev = 'o'› ▸ hg.mem, rfl⟩
        have hp : Sound B e opts asset (s.setFlag h.unwrapOutputTeeAsset) := hs.setFlag hot hsource
        exact hg.after ⟨hp.flags, hp.key, hp.input⟩ rfl (by decide) (by decide)
      · subst hr; cases hok
  · subst hr; cases hok

/-! ## macgen -/

def Header.macgenTable (h : Header) : List ((Char × Kind) × Nat) :=
  [(('k', .stored), h.macKeySecureStore), (('k', .data), h.macKeyBuffer), (('k', .asset), h.macKeyOtp)]

theorem macgenStep_going (hB : B.table = h.macgenTable) {c : Char} {arg : Word} {rest : List Scanned}
    (hg : Going B e opts (fun arg => some (otpNumber h arg)) true ['k', 'i'] s (some (c, arg) :: rest))
    (hok : (macgenStep h e s c arg).ok = true) :
    Going B e opts (fun arg => some (otpNumber h arg)) true ['k', 'i'] (macgenStep h e s c arg).state rest := by
  have hks : B.bit 'k' .stored = some h.macKeySecureStore := B.bit_of_table hB _ _
  have hkd : B.bit 'k' .data = some h.macKeyBuffer := B.bit_of_table hB _ _
  have hkt : B.bit 'k' .asset = some h.macKeyOtp := B.bit_of_table hB _ _
  have hid : B.bit 'i' .data = none := B.bit_of_table hB _ _
  have hs := hg.sound
  generalize hr : macgenStep h e s c arg = r at hok ⊢
  unfold macgenStep at hr
  split at hr
  · subst hr; exact hg.afterLetter (by decide)
  · subst hr; exact hg.afterLetter (by decide)
  · subst hr
    exact hg.after ⟨hs.flags, hs.key, hs.input⟩ rfl (by decide) (by decide)
  · split at hr
    · subst hr; cases hok
    · rename_i hprev
      have hk : s.prev = 'k' := not_not.mp hprev
      have hmain : s.mainOpt = 'k' := (hg.place.letter (by rw [hk]; decide)).trans hk
      have hsource : HasSource opts 'k' .stored := ⟨'n', arg, hk ▸ hg.mem, rfl⟩
      have hin : s.mainOpt ∈ ['k', 'i'] := by rw [hmain]; decide
      have hn : 'n' ∉ ['k', 'i'] := by decide
      subst hr
      exact {
        sound := ⟨hs.flags, hs.key, hs.input⟩
        place := ⟨fun hc => (hn hc).elim, fun _ => ⟨hin, hmain ▸ hsource, fun hf => by cases hf⟩⟩
        rest := fun o ho => hg.rest o (List.mem_cons_of_mem _ ho) }
  · split at hr
    · subst hr; cases hok
    · rename_i hprev
      obtain ⟨hn, hmain⟩ := not_or.mp hprev
      obtain ⟨-, hsource, -⟩ := hg.place.named (not_not.mp hn)
      rw [not_not.mp hmain] at hsource
      split at hr
      · subst hr; cases hok
      · rename_i q size hq
        subst hr
        have hp : Sound B e opts (fun arg => some (otpNumber h arg)) ((s.setKey (.sst q) size).setFlag h.macKeySecureStore) :=
          (hs.setFlag hks hsource).withKey ⟨(storedObject_opened hq).1, (B.shown_setFlag hks s).set hks, (storedObject_opened hq).2⟩
        exact hg.after ⟨hp.flags, hp.key, hp.input⟩ rfl (by decide) (by decide)
  · split at hr
    · rename_i hprev
      split at hr
      · subst hr; cases hok
      · rename_i b hb
        obtain ⟨hgiven, hne⟩ := loadFile_given hg.mem hb
        dsimp only at hr
        split at hr
        · rename_i hk
          subst hr
          have hsource : HasSource opts 'k' .data := ⟨'f', arg, hk ▸ hg.mem, rfl⟩
          have hp := hs.keyData hkd hsource (hk ▸ hgiven) hne
          exact hg.after ⟨hp.flags, hp.key, hp.input⟩ rfl (by decide) (by decide)
        · rename_i hk
          have hi : s.prev = 'i' := hprev.resolve_left hk
          subst hr
          -- the input of macgen has no flag
          have hnone : B.Shown s.flags 'i' .data := fun i hbit => by cases hid.symm.trans hbit
          have hp : Sound B e opts (fun arg => some (otpNumber h arg)) (s.setInput (.data b) b.length) :=
            hs.withInput ⟨rfl, hne, .inl ⟨hnone, hi ▸ hgiven⟩⟩
          exact hg.after ⟨hp.flags, hp.key, hp.input⟩ rfl (by decide) (by decide)
    · subst hr; cases hok
  · split at hr
    · subst hr; cases hok
    · rename_i hprev
      have hk : s.prev = 'k' := not_not.mp hprev
      split at hr
      · subst hr; cases hok
      · subst hr
        have hsource : HasSource opts 'k' .asset := ⟨'t', arg, hk ▸ hg.mem, rfl⟩
        have hp : Sound B e opts (fun arg => some (otpNumber h arg))
            ((s.setKey (.data (otpNumber h arg)) 4).setFlag h.macKeyOtp) :=
          (hs.setFlag hkt hsource).withKey ⟨rfl, Nat.succ_ne_zero 3, .inr ⟨B.shown_setFlag hkt s, arg, hk ▸ hg.mem, rfl⟩⟩
        exact hg.after ⟨hp.flags, hp.key, hp.input⟩ rfl (by decide) (by decide)
  · subst hr; cases hok

end Seccrypto
