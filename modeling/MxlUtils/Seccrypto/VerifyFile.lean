import MxlUtils.Seccrypto.SignOptions

/- Signature files between sign and verify. A written signature is read back and whatever
   is not complete is refused, but for a cut in the last number; the memory for the
   numbers holds them unless their lengths overflow size_t; and verify does not compare
   the kind in the file with the algorithm. -/
namespace Seccrypto
open CString Getopt

variable {h : Header} {e : Env} {s : SignState} {opts : List Scanned} {L : Layout} {m : Memory} {file struct : Bytes}
variable {sign : Signature} {a : Asked}

/-- A file is accepted only if it begins with a complete signature, and every access is in bounds. -/
def ReadsSafely (L : Layout) (m : Memory) (file : Bytes) : Prop :=
  ((readFile2sign L m (some file)).1.isSome → Complete L file) ∧
    ∀ access ∈ (readFile2sign L m (some file)).2, access.InBounds

/-- A signature that is handed over for verification is of the kind of its algorithm. -/
def KindAgrees (h : Header) (handed : Option Handed) : Prop :=
  ∀ algo hash flags data sign inputName signName,
    handed = some (.verify algo hash flags data sign inputName signName) → sign.isRsa = isRsaAlg h algo

/-- Everything that verify looks at: the flags, the hash, the input, the algorithm and a signature
that can be read. -/
def Asked.Verifiable (h : Header) (e : Env) (a : Asked) : Prop :=
  a.refused h = false ∧ (readFile e a.inputName).1.isSome ∧ (isRsaAlg h a.algo = true ∨ isEcdsaAlg h a.algo = true) ∧
    (readFile2sign h.layout e.mem (e.file a.outputName)).1.isSome

/-- The kind stored in a file. -/
def storedKind (file : Option Bytes) : Bool := storedRsa (file.getD [])

/-! ## Kinds -/

theorem isRsa_readRsa {rest : Bytes} (hread : (readRsa L m rest).1 = some sign) : sign.isRsa = true := by
  simp only [readRsa] at hread
  split_ifs at hread
  cases hread
  rfl

theorem isRsa_readEcdsa {rest : Bytes} (hread : (readEcdsa L m rest).1 = some sign) : sign.isRsa = false := by
  simp only [readEcdsa] at hread
  split_ifs at hread
  cases hread
  rfl

/-- A signature is of the kind that its file says. -/
theorem isRsa_readFile2sign {stored : Option Bytes} (hread : (readFile2sign L m stored).1 = some sign) :
    sign.isRsa = storedKind stored := by
  cases stored with
  | none => cases hread
  | some file =>
    by_cases hfile : file = []
    · rw [hfile] at hread
      cases hread
    · rw [readFile2sign_eq hfile] at hread
      cases hrsa : storedRsa file with
      | true =>
        rw [if_pos hrsa] at hread
        exact (isRsa_readRsa hread).trans hrsa.symm
      | false =>
        rw [if_neg (by simp [hrsa])] at hread
        exact (isRsa_readEcdsa hread).trans hrsa.symm

/-- Verify hands over the signature of the file, whatever its kind is. -/
theorem verifyRequest_isSome (hverifiable : a.Verifiable h e) :
    ∃ data sign, (readFile2sign h.layout e.mem (e.file a.outputName)).1 = some sign ∧
      a.verifyRequest h e = some (.verify a.algo a.hash a.flags data sign a.inputName a.outputName) := by
  obtain ⟨hrefused, hinput, hkind, hsign⟩ := hverifiable
  obtain ⟨data, hdata⟩ := Option.isSome_iff_exists.mp hinput
  obtain ⟨sign, hread⟩ := Option.isSome_iff_exists.mp hsign
  refine ⟨data, sign, hread, ?_⟩
  rw [Asked.verifyRequest, if_neg (by simp [hrefused]), hdata]
  simp [hkind, hread]

theorem verifyRequest_eq_none (hnot : ¬a.Verifiable h e) : a.verifyRequest h e = none := by
  rw [Asked.verifyRequest]
  split
  · rfl
  · rename_i hrefused
    cases hdata : (readFile e a.inputName).1 with
    | none => rfl
    | some data =>
      by_cases hkind : isRsaAlg h a.algo = true ∨ isEcdsaAlg h a.algo = true
      · have hsign : (readFile2sign h.layout e.mem (e.file a.outputName)).1 = none := by
          by_contra hsome
          exact hnot ⟨by simpa using hrefused, by simp [hdata], hkind, Option.isSome_iff_ne_none.mpr hsome⟩
        simp [hsign]
      · simp [hkind]

theorem kindAgrees_iff : KindAgrees h (a.verifyRequest h e) ↔
    (a.Verifiable h e → storedKind (e.file a.outputName) = isRsaAlg h a.algo) := by
  by_cases hverifiable : a.Verifiable h e
  · obtain ⟨data, sign, hread, hrequest⟩ := verifyRequest_isSome hverifiable
    rw [hrequest, ← isRsa_readFile2sign hread]
    constructor
    · intro hagrees _
      exact hagrees _ _ _ _ _ _ _ rfl
    · intro hsame algo hash flags data' sign' inputName signName heq
      cases heq
      exact hsame hverifiable
  · rw [verifyRequest_eq_none hverifiable]
    constructor
    · intro _ hcontra
      exact (hverifiable hcontra).elim
    · intro _ algo hash flags data sign inputName signName heq
      cases heq

/-! ## Signature files -/

theorem isSome_imp_memoryFor (hread : (readFile2sign L m (some file)).1.isSome) : memoryFor L m file = true :=
  (readFile2sign_isSome.mp hread).1

/-- A written signature is read back if there is memory for it. A file is read safely unless it is
cut in its last number and there is memory for it, or the memory for its lengths is too small. Verify
hands over signatures of the right kind only where the file happens to hold the kind asked for. -/
theorem signatureFile_iff (h : Header) (e : Env) (s : SignState) (opts : List Scanned) (hlines : Lines s opts) :
    (∀ sign struct, Signature.Struct h.layout sign struct → sign.NonEmpty →
      ((readFile2sign h.layout e.mem (some (writeSign2file struct sign))).1 = some sign ↔
        memoryFor h.layout e.mem (writeSign2file struct sign) = true)) ∧
    (∀ file, ReadsSafely h.layout e.mem file ↔
      ¬(CutInNumber h.layout file ∧ memoryFor h.layout e.mem file = true) ∧ Fits h.layout e.mem file) ∧
    (KindAgrees h (parseVerifyOptions h e s opts).handed ↔
      (KnownOptions opts → (s.asked.update h opts).Verifiable h e →
        storedKind (e.file (s.asked.update h opts).outputName) = isRsaAlg h (s.asked.update h opts).algo)) := by
  refine ⟨?_, ?_, ?_⟩
  · intro sign struct hstruct hnumbers
    constructor
    · intro hread
      exact isSome_imp_memoryFor (by simp [hread])
    · intro hmemory
      exact readFile2sign_writeSign2file hstruct hnumbers hmemory
  · intro file
    rw [ReadsSafely, accepts_complete_iff, readFile2sign_inBounds_iff]
  · obtain ⟨hknown, hunknown⟩ := parseVerifyOptions_handed hlines
    by_cases hoptions : KnownOptions opts
    · rw [hknown hoptions, kindAgrees_iff]
      exact ⟨fun hagrees _ => hagrees, fun hagrees => hagrees hoptions⟩
    · rw [hunknown hoptions]
      constructor
      · intro _ hcontra
        exact (hoptions hcontra).elim
      · intro _ algo hash flags data sign inputName signName heq
        cases heq

/-! ## A cut file -/

/-- An RSA signature of two bytes that ends after the first. -/
def cutFile : Bytes := kindBytes true ++ [0, 0, 0, 0, 0, 0, 0, 0, 2, 0, 0, 0, 0, 0, 0, 0] ++ [7]

def signedEnv : Env where
  file name := if name = ['s'] then some cutFile else if name = ['d'] then some [1] else none
  mem := ⟨fun _ => true, fun _ => 0⟩
  createOpen _ _ _ := none
  stored _ := none
  keyStored _ _ _ _ := false
  file_nil := rfl

/-- The client before its first command. -/
def noNames : SignState := ⟨0, 0, 0, List.replicate 200 NUL, List.replicate 200 NUL⟩

/-- `verify -a 3 -i d -s s` -/
def verifyEcdsa : List Scanned := [some ('a', ['3']), some ('i', ['d']), some ('s', ['s'])]

theorem verifyEcdsa_lines : Lines noNames verifyEcdsa where
  input := rfl
  output := rfl
  args := by
    intro c arg hmem
    simp only [verifyEcdsa, List.mem_cons, Option.some.injEq, Prod.mk.injEq, List.not_mem_nil, or_false] at hmem
    rcases hmem with ⟨-, rfl⟩ | ⟨-, rfl⟩ | ⟨-, rfl⟩
    · exact ⟨by decide, by decide⟩
    · exact ⟨by decide, by decide⟩
    · exact ⟨by decide, by decide⟩

/-- A signature of one byte is read back. -/
theorem signatureFile_byte :
    (readFile2sign .lp64 signedEnv.mem
      (some (writeSign2file [0, 0, 0, 0, 0, 0, 0, 0, 1, 0, 0, 0, 0, 0, 0, 0] (.rsa [5])))).1 = some (.rsa [5]) :=
  ((signatureFile_iff .help signedEnv noNames verifyEcdsa verifyEcdsa_lines).1 (.rsa [5]) _ ⟨rfl, rfl⟩
    (List.cons_ne_nil 5 [])).mpr rfl

/-- The cut file is accepted, and the signature of RSA is handed over for ECDSA. -/
theorem cutFile_accepted : ¬ReadsSafely .lp64 signedEnv.mem cutFile ∧
    ¬KindAgrees .help (parseVerifyOptions .help signedEnv noNames verifyEcdsa).handed := by
  constructor
  · intro hsafe
    have hcomplete : Complete .lp64 cutFile := hsafe.1 rfl
    rw [complete_iff] at hcomplete
    exact absurd hcomplete (by decide)
  · intro hagrees
    have hknown : KnownOptions verifyEcdsa := by simp [KnownOptions, verifyEcdsa]
    rw [(parseVerifyOptions_handed verifyEcdsa_lines).1 hknown] at hagrees
    have hkind := hagrees 3 0 0 [1] (.rsa [7, 0]) ['d'] ['s'] rfl
    exact absurd hkind (by decide)

end Seccrypto
