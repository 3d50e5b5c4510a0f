import MxlUtils.Seccrypto.Client

/- What sign and verify take from their options. Both run the same loop over two name
   buffers, and each letter counts by its last option; a letter that is not given leaves
   what was there. -/
namespace Seccrypto
open CString Getopt

variable {h : Header} {e : Env} {s : SignState} {opts : List Scanned} {letter : Char}

/-- The argument of the last option with that letter. -/
def lastArg (letter : Char) : List Scanned → Option Word
  | [] => none
  | none :: opts => lastArg letter opts
  | some (c, arg) :: opts => (lastArg letter opts).or (if c = letter then some arg else none)

/-- An argument that leaves room for its NUL in a name buffer. -/
def IsName (arg : Word) : Prop := arg.length ≤ 199 ∧ ∀ c ∈ arg, c ≠ NUL

theorem isName_nil : IsName [] := ⟨Nat.zero_le _, fun _ hc => absurd hc List.not_mem_nil⟩

/-- The buffers have their 200 bytes, and the arguments come from a line. -/
structure Lines (s : SignState) (opts : List Scanned) : Prop where
  input : s.inputFname.length = 200
  output : s.outputFname.length = 200
  args : ∀ c arg, some (c, arg) ∈ opts → IsName arg

/-- The parameters of a signature with the names that the buffers hold. -/
structure Asked where
  algo : Nat
  flags : Nat
  hash : Nat
  inputName : Word
  outputName : Word
deriving DecidableEq

def SignState.asked (s : SignState) : Asked := ⟨s.algo, s.flags, s.hash, cstr s.inputFname, cstr s.outputFname⟩

/-- What is asked for after the options. -/
def Asked.update (h : Header) (a : Asked) (opts : List Scanned) : Asked where
  algo := (lastArg 'a' opts).elim a.algo h.number
  flags := (lastArg 'o' opts).elim a.flags h.number
  hash := (lastArg 'h' opts).elim a.hash h.number
  inputName := (lastArg 'i' opts).elim a.inputName id
  outputName := (lastArg 's' opts).elim a.outputName id

def KnownOptions (opts : List Scanned) : Prop :=
  ∀ o ∈ opts, ∃ c arg, o = some (c, arg) ∧ c ∈ ['a', 'o', 'i', 's', 'h']

/-! ## The loop -/

theorem elim_or {α β : Type} (x y : Option α) (d : β) (f : α → β) : (x.or y).elim d f = x.elim (y.elim d f) f := by
  cases x with
  | none => rfl
  | some a => rfl

/-- One option counts for its own letter, under the later ones. -/
theorem Asked.update_cons (a : Asked) (c : Char) (arg : Word) (opts : List Scanned) :
    a.update h (some (c, arg) :: opts) = (a.update h [some (c, arg)]).update h opts := by
  simp only [Asked.update, lastArg, elim_or, Option.none_or]

theorem signStep_ok_iff {c : Char} {arg : Word} :
    (signStep h s c arg).ok = true ↔ c ∈ ['a', 'o', 'i', 's', 'h'] := by
  constructor
  · intro hok
    unfold signStep at hok
    split at hok
    · simp
    · simp
    · simp
    · simp
    · simp
    · cases hok
  · intro hc
    simp only [List.mem_cons, List.not_mem_nil, or_false] at hc
    rcases hc with rfl | rfl | rfl | rfl | rfl <;> rfl

theorem scanLoop_sign_ok_iff : (scanLoop (signStep h) s opts).ok = true ↔ KnownOptions opts := by
  induction opts generalizing s with
  | nil => simp [scanLoop, KnownOptions]
  | cons o opts ih =>
    cases o with
    | none => simp [scanLoop, KnownOptions]
    | some o =>
      obtain ⟨c, arg⟩ := o
      by_cases hone : (signStep h s c arg).ok = true
      · have hc := (signStep_ok_iff).mp hone
        have hrest : KnownOptions (some (c, arg) :: opts) ↔ KnownOptions opts := by
          simp only [KnownOptions, List.forall_mem_cons]
          exact and_iff_right ⟨c, arg, rfl, hc⟩
        rw [hrest, ← ih (s := (signStep h s c arg).state)]
        simp [scanLoop, hone]
      · rw [scanLoop, if_neg hone]
        refine ⟨fun hok => (hone hok).elim, fun hknown => ?_⟩
        obtain ⟨c', arg', heq, hc⟩ := hknown _ (List.mem_cons_self ..)
        cases heq
        exact (hone (signStep_ok_iff.mpr hc)).elim

/-- An option with a letter of the loop does what it says, and keeps the buffers. -/
theorem signStep_asked {c : Char} {arg : Word} (hlines : Lines s (some (c, arg) :: opts))
    (hc : c ∈ ['a', 'o', 'i', 's', 'h']) :
    (signStep h s c arg).state.asked = s.asked.update h [some (c, arg)] ∧ Lines (signStep h s c arg).state opts := by
  obtain ⟨hlength, hnul⟩ := hlines.args c arg (List.mem_cons_self ..)
  have hname : ∀ buf : List Char, buf.length = 200 → cstr (copyName buf arg 199) = arg :=
    fun buf hbuf => cstr_copyName hnul hlength (by omega)
  have hargs : ∀ c arg, some (c, arg) ∈ opts → IsName arg :=
    fun c arg hmem => hlines.args c arg (List.mem_cons_of_mem _ hmem)
  simp only [List.mem_cons, List.not_mem_nil, or_false] at hc
  rcases hc with rfl | rfl | rfl | rfl | rfl
  · exact ⟨by simp [signStep, SignState.asked, Asked.update, lastArg], hlines.input, hlines.output, hargs⟩
  · exact ⟨by simp [signStep, SignState.asked, Asked.update, lastArg], hlines.input, hlines.output, hargs⟩
  · exact ⟨by simp [signStep, SignState.asked, Asked.update, lastArg, hname _ hlines.input],
      by simp [signStep, hlines.input], hlines.output, hargs⟩
  · exact ⟨by simp [signStep, SignState.asked, Asked.update, lastArg, hname _ hlines.output], hlines.input,
      by simp [signStep, hlines.output], hargs⟩
  · exact ⟨by simp [signStep, SignState.asked, Asked.update, lastArg], hlines.input, hlines.output, hargs⟩

theorem scanLoop_asked (hlines : Lines s opts) (hknown : KnownOptions opts) :
    (scanLoop (signStep h) s opts).state.asked = s.asked.update h opts := by
  induction opts generalizing s with
  | nil => rfl
  | cons o opts ih =>
    obtain ⟨c, arg, rfl, hc⟩ := hknown o (List.mem_cons_self ..)
    have hone : (signStep h s c arg).ok = true := (signStep_ok_iff).mpr hc
    obtain ⟨hstep, hrest⟩ := signStep_asked hlines hc
    have hloop := ih hrest fun o ho => hknown o (List.mem_cons_of_mem _ ho)
    rw [Asked.update_cons, ← hstep, ← hloop]
    simp [scanLoop, hone]

theorem signStep_length {c : Char} {arg : Word} :
    (signStep h s c arg).state.inputFname.length = s.inputFname.length ∧
      (signStep h s c arg).state.outputFname.length = s.outputFname.length := by
  unfold signStep
  split <;> simp

/-- Whatever the options are, the buffers keep their size. -/
theorem scanLoop_sign_length : (scanLoop (signStep h) s opts).state.inputFname.length = s.inputFname.length ∧
    (scanLoop (signStep h) s opts).state.outputFname.length = s.outputFname.length := by
  refine scanLoop_keeps (I := fun t : SignState => t.inputFname.length = s.inputFname.length ∧
    t.outputFname.length = s.outputFname.length) (fun t c arg ht => ?_) ⟨rfl, rfl⟩
  exact ⟨signStep_length.1.trans ht.1, signStep_length.2.trans ht.2⟩

/-! ## The rest of the parsers -/

theorem parseVerifyOptions_state :
    (parseVerifyOptions h e s opts).state = (scanLoop (signStep h) s opts).state := by
  generalize hr : scanLoop (signStep h) s opts = r
  simp only [parseVerifyOptions, hr]
  by_cases hok : r.ok = false
  · simp [hok, Outcome.refuse]
  · by_cases hrefused : signRefused h r.state = true
    · simp [hrefused, Outcome.refuse]
    · rw [if_neg hok, if_neg hrefused]
      cases (readFile e (cstr r.state.inputFname)).1 with
      | none => rfl
      | some data =>
        by_cases hkind : isRsaAlg h r.state.algo = true ∨ isEcdsaAlg h r.state.algo = true
        · simp only [if_pos hkind]
          cases (readFile2sign h.layout e.mem (e.file (cstr r.state.outputFname))).1 with
          | none => rfl
          | some sign => rfl
        · simp only [if_neg hkind]

theorem parseSigningOptions_state :
    (parseSigningOptions h e s opts).state = (scanLoop (signStep h) s opts).state := by
  generalize hr : scanLoop (signStep h) s opts = r
  simp only [parseSigningOptions, hr]
  by_cases hok : r.ok = false
  · simp [hok, Outcome.refuse]
  · by_cases hrefused : signRefused h r.state = true
    · simp [hrefused, Outcome.refuse]
    · rw [if_neg hok, if_neg hrefused]
      cases (readFile e (cstr r.state.inputFname)).1 with
      | none => rfl
      | some data =>
        by_cases hrsa : isRsaAlg h r.state.algo = true
        · simp only [if_pos hrsa]
        · by_cases hecdsa : isEcdsaAlg h r.state.algo = true
          · simp only [if_neg hrsa, if_pos hecdsa]
          · simp only [if_neg hrsa, if_neg hecdsa]

/-- The checks of the flags and the hash algorithm. -/
def Asked.refused (h : Header) (a : Asked) : Bool :=
  a.flags < h.scFlagPartial || h.scFlagFinal < a.flags || a.hash < h.rsaPkcs15Sha1 || h.ecdsaAsn1Sha384 < a.hash

def Asked.verifyRequest (h : Header) (e : Env) (a : Asked) : Option Handed :=
  if a.refused h = true then none
  else match (readFile e a.inputName).1 with
    | none => none
    | some data =>
      if isRsaAlg h a.algo = true ∨ isEcdsaAlg h a.algo = true then
        (readFile2sign h.layout e.mem (e.file a.outputName)).1.map fun sign =>
          .verify a.algo a.hash a.flags data sign a.inputName a.outputName
      else none

theorem parseVerifyOptions_handed (hlines : Lines s opts) :
    (KnownOptions opts → (parseVerifyOptions h e s opts).handed = (s.asked.update h opts).verifyRequest h e) ∧
      (¬KnownOptions opts → (parseVerifyOptions h e s opts).handed = none) := by
  constructor
  · intro hknown
    have hok : (scanLoop (signStep h) s opts).ok = true := (scanLoop_sign_ok_iff).mpr hknown
    rw [← scanLoop_asked hlines hknown]
    simp only [parseVerifyOptions, hok, Bool.true_eq_false, if_false]
    generalize (scanLoop (signStep h) s opts).state = t
    have hsame : t.asked.refused h = signRefused h t := rfl
    rw [Asked.verifyRequest, hsame]
    simp only [SignState.asked]
    cases signRefused h t with
    | true => rfl
    | false =>
      cases (readFile e (cstr t.inputFname)).1 with
      | none => rfl
      | some data =>
        by_cases hkind : isRsaAlg h t.algo = true ∨ isEcdsaAlg h t.algo = true
        · simp only [hkind, if_true]
          cases (readFile2sign h.layout e.mem (e.file (cstr t.outputFname))).1 with
          | none => rfl
          | some sign => rfl
        · simp [hkind]
  · intro hunknown
    have hok : (scanLoop (signStep h) s opts).ok = false := by
      simpa using fun hok => hunknown (scanLoop_sign_ok_iff.mp hok)
    simp [parseVerifyOptions, hok, Outcome.refuse]

end Seccrypto
