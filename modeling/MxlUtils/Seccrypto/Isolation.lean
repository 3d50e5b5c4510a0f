import MxlUtils.Seccrypto.Main
import MxlUtils.Seccrypto.VerifyFile

/- What a command takes over from the commands before it. Generation, loading, unwrap and
   macgen take nothing. Sign and wrap take the file names that are not given from the
   buffers, and verify the algorithm, the flags and the hash too; wrap also takes the end
   of a name that is longer than its count. Where nothing of that is left over and getopt
   starts with the words of the line, a line does what it does as the first one. -/
namespace Seccrypto
open CString Getopt Execution

variable {h : Header} {e : Env} {c : Client} {line : Line} {opts : List Scanned}

/-- A name is given, or its buffer holds none. -/
def NamesFresh (c : Client) (opts : List Scanned) : Prop :=
  (lastArg 'i' opts = none → cstr c.inputFname = []) ∧ (lastArg 's' opts = none → cstr c.outputFname = [])

/-- What a command does not set is as it was at the start. -/
def FreshFor (c : Client) (opts : List Scanned) : Command → Prop
  | .verify => (lastArg 'a' opts = none → c.algo = 0) ∧ (lastArg 'o' opts = none → c.flags = 0) ∧
      (lastArg 'h' opts = none → c.hash = 0) ∧ NamesFresh c opts
  | .sign => NamesFresh c opts
  | .wrap => (lastArg 'o' opts = none → cstr c.outputFname = []) ∧
      ∀ arg, lastArg 'o' opts = some arg → 29 < arg.length → c.outputFname[29]? = some NUL
  | _ => True

/-- getopt starts with the words of the line, and nothing is left over for its command. -/
def Fresh (c : Client) (line : Line) : Prop :=
  ∀ cmd args command, line.words = cmd :: args → Command.ofWord cmd = some command → args ≠ [] →
    c.kept = [] ∧ FreshFor c (options command.options [] args) command

/-! ## Sign and verify -/

/-- The state of a parser over another name buffer. -/
def SourceState.onBuffer (s : SourceState) (buf : List Char) : SourceState := { s with outputFname := buf }

theorem takeData_onBuffer {F : SourceFlags} {s : SourceState} {letter : Char} {got : Option Bytes × List Access}
    {buf : List Char} : (s.onBuffer buf).takeData F letter got =
      { s.takeData F letter got with state := (s.takeData F letter got).state.onBuffer buf } := by
  have hprev : (s.onBuffer buf).prev = s.prev := rfl
  unfold SourceState.takeData
  cases got.1 with
  | none => rfl
  | some b =>
    by_cases hkey : s.prev = 'k'
    · simp only [hprev, hkey, if_true]
      rfl
    · simp only [hprev, hkey, if_false]
      rfl

/-- An option other than the name does the same over any name buffer. -/
theorem wrapStep_onBuffer {s : SourceState} {letter : Char} (hne : letter ≠ 'o') (arg : Word) (buf : List Char) :
    wrapStep h e (s.onBuffer buf) letter arg =
      { wrapStep h e s letter arg with state := (wrapStep h e s letter arg).state.onBuffer buf } := by
  have hprev : (s.onBuffer buf).prev = s.prev := rfl
  have hmain : (s.onBuffer buf).mainOpt = s.mainOpt := rfl
  unfold wrapStep
  rw [hprev]
  split
  · rfl
  · rfl
  · exact (hne rfl).elim
  · split_ifs <;> rfl
  · split_ifs
    · rfl
    · have hname : (s.onBuffer buf).name = s.name := rfl
      have hlength : (s.onBuffer buf).dataLen = s.dataLen := rfl
      rw [hname, hlength]
      cases storedObject h e s.name (h.number arg) s.dataLen with
      | none => rfl
      | some got =>
        by_cases hkey : s.mainOpt = 'k'
        · simp only [hmain, hkey, if_true]
          rfl
        · simp only [hmain, hkey, if_false]
          rfl
  · split_ifs
    · exact takeData_onBuffer
    · rfl
  · split_ifs
    · exact takeData_onBuffer
    · rfl
  · split_ifs <;> rfl
  · rfl

theorem length_wrapStep {s : SourceState} {letter : Char} {arg : Word} :
    (wrapStep h e s letter arg).state.outputFname.length = s.outputFname.length := by
  by_cases hletter : letter = 'o'
  · subst hletter
    exact length_copyName
  · have hsame : (wrapStep h e s letter arg).state.outputFname = s.outputFname := by
      have hstep := congrArg (fun r => r.state.outputFname) (wrapStep_onBuffer (h := h) (e := e) (s := s) hletter arg s.outputFname)
      exact hstep
    rw [hsame]

theorem parseWrap_length {buf : List Char} :
    (parseWrapOptions h e buf opts).state.outputFname.length = buf.length := by
  have hloop : (scanLoop (wrapStep h e) { outputFname := buf } opts).state.outputFname.length = buf.length :=
    scanLoop_keeps (I := fun t : SourceState => t.outputFname.length = buf.length)
      (fun t letter arg ht => length_wrapStep.trans ht) rfl
  generalize hr : scanLoop (wrapStep h e) { outputFname := buf } opts = r at hloop
  simp only [parseWrapOptions, hr]
  split_ifs
  · exact hloop
  · exact hloop
  · exact hloop
  · exact hloop
  · exact hloop

theorem block_length : (c.round h e line).block.inputFname.length = 200 ∧
    (c.round h e line).block.outputFname.length = 200 := by
  have hstay : c.block.inputFname.length = 200 ∧ c.block.outputFname.length = 200 := ⟨c.input_length, c.output_length⟩
  unfold Client.round
  split
  · exact hstay
  · split
    · exact hstay
    · rename_i command _
      dsimp only
      split
      · exact hstay
      · cases command with
        | load => exact hstay
        | gen => exact hstay
        | unwrap => exact hstay
        | macgen => exact hstay
        | sign =>
          simp only [Client.run, parseSigningOptions_state, scanLoop_sign_length]
          exact hstay
        | verify =>
          simp only [Client.run, parseVerifyOptions_state, scanLoop_sign_length]
          exact hstay
        | wrap => exact ⟨c.input_length, parseWrap_length.trans c.output_length⟩

/-- The client after a line, if the service leaves the block alone and getopt keeps nothing. -/
def Client.after (h : Header) (e : Env) (c : Client) (line : Line) : Client where
  algo := (c.round h e line).block.algo
  flags := (c.round h e line).block.flags
  hash := (c.round h e line).block.hash
  inputFname := (c.round h e line).block.inputFname
  outputFname := (c.round h e line).block.outputFname
  kept := []
  input_length := block_length.1
  output_length := block_length.2
  kept_isName := isName_nil

end Seccrypto
