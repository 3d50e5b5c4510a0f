import MxlUtils.Sgam.Commands

/- The table of options has as many entries as options are stored at most, so a table that is
   full has no entry without an option at its end: the loops of the parsers then read behind it,
   and further options are never asked for. `tableRight_iff` says on which command lines that
   happens. -/
namespace Sgam
open CString Getopt

variable (p : Platform)

/-! ## Walks -/

section Walk
variable {σ : Type} {step : σ → CmdOpts → Except Code σ}

theorem walk_reads_le {s : σ} {os : List CmdOpts} : (walk step s os).2 ≤ os.length + 1 := by
  induction os generalizing s with
  | nil => exact Nat.le_refl 1
  | cons o os ih =>
    rw [walk]
    split
    · exact Nat.le_add_left 1 _
    · exact Nat.succ_le_succ ih

/-- A loop that refuses none of the first entries reads what follows them. -/
theorem lt_walk_reads_of_all {ok : CmdOpts → Prop} (hok : ∀ s o, ok o → ∃ s', step s o = .ok s') {s : σ}
    {os rest : List CmdOpts} (h : ∀ o ∈ os, ok o) : os.length < (walk step s (os ++ rest)).2 := by
  induction os generalizing s with
  | nil =>
    cases rest with
    | nil => exact Nat.zero_lt_one
    | cons o rest =>
      rw [List.nil_append, walk]
      split
      · exact Nat.zero_lt_one
      · exact Nat.succ_pos _
  | cons o os ih =>
    obtain ⟨s', hs'⟩ := hok s o (h o List.mem_cons_self)
    have hrest := ih (s := s') fun o' ho' => h o' (List.mem_cons_of_mem o ho')
    rw [List.cons_append, walk, hs']
    exact Nat.succ_lt_succ hrest

/-- A loop that refuses an entry has read nothing behind it. -/
theorem walk_reads_of_not {ok : CmdOpts → Prop} (hbad : ∀ s o, ¬ ok o → ∃ c, step s o = .error c) {s : σ}
    {os : List CmdOpts} (rest : List CmdOpts) (h : ∃ o ∈ os, ¬ ok o) :
    (∃ c, (walk step s (os ++ rest)).1 = .error c) ∧ (walk step s (os ++ rest)).2 ≤ os.length := by
  induction os generalizing s with
  | nil =>
    obtain ⟨o, ho, -⟩ := h
    cases ho
  | cons o os ih =>
    rw [List.cons_append, walk]
    cases hs : step s o with
    | error c => exact ⟨⟨c, rfl⟩, by simp⟩
    | ok s' =>
      have hrest : ∃ o' ∈ os, ¬ ok o' := by
        obtain ⟨o', ho', hnot⟩ := h
        rcases List.mem_cons.mp ho' with rfl | hmem
        · obtain ⟨c, hc⟩ := hbad s o' hnot
          rw [hs] at hc
          cases hc
        · exact ⟨o', hmem, hnot⟩
      obtain ⟨hres, hreads⟩ := ih (s := s') hrest
      exact ⟨hres, Nat.succ_le_succ hreads⟩

theorem walkOn_reads {s : Code × σ} {os : List CmdOpts} : (walkOn step s os).2 = os.length + 1 := by
  induction os generalizing s with
  | nil => rfl
  | cons o os ih =>
    rw [walkOn]
    exact congrArg (· + 1) ih

end Walk

/-! ## Entries that are refused -/

def okCode {α : Type} : Except Code α → Bool
  | .ok _ => true
  | .error _ => false

/-- Whether the parser of a command accepts an entry; that does not depend on the entries before. -/
def Command.accepts : Command → CmdOpts → Bool
  | .addacct, o => okCode (addAcctStep p ⟨[], 0⟩ o)
  | .addmeter, o => okCode (addMeterStep p clearedMeter o)
  | _, o => okCode (nameStep p [] o)

theorem okCode_map {α β : Type} (f : α → β) (r : Except Code α) : okCode (r.map f) = okCode r := by
  cases r <;> rfl

theorem okCode_addAcctStep (info info' : AcctInfo) (o : CmdOpts) :
    okCode (addAcctStep p info o) = okCode (addAcctStep p info' o) := by
  unfold addAcctStep
  split
  · rw [okCode_map, okCode_map]
  · rfl
  · rfl

theorem okCode_addMeterStep (info info' : MeterInfo) (o : CmdOpts) :
    okCode (addMeterStep p info o) = okCode (addMeterStep p info' o) := by
  unfold addMeterStep
  split <;> simp only [okCode_map]

theorem okCode_iff {α : Type} {r : Except Code α} : okCode r = true ↔ ∃ a, r = .ok a := by
  cases r <;> simp [okCode]

theorem not_okCode_iff {α : Type} {r : Except Code α} : ¬ okCode r = true ↔ ∃ c, r = .error c := by
  cases r <;> simp [okCode]

/-- A step that refuses an entry has a code for that. -/
def Codes {σ : Type} (step : σ → CmdOpts → Except Code σ) : Prop :=
  ∀ s o, step s o ≠ .error .ok

theorem map_ne_error_ok {α β : Type} {f : α → β} {r : Except Code α} (h : r ≠ .error .ok) :
    r.map f ≠ .error .ok := by
  cases r with
  | error c => exact fun heq => h (by simpa [Except.map] using heq)
  | ok a => exact nofun

theorem sgamCopyLabel_codes (arg : Word) : sgamCopyLabel p arg ≠ .error .ok := by
  unfold sgamCopyLabel
  split <;> exact nofun

theorem setMeterMode_codes (arg : Word) : setMeterMode arg ≠ .error .ok := by
  unfold setMeterMode
  split_ifs <;> exact nofun

theorem setDscpRemarking_codes (arg : Word) : setDscpRemarking p arg ≠ .error .ok := by
  unfold setDscpRemarking
  dsimp only
  split_ifs <;> exact nofun

theorem setMeterCirPir_codes (arg : Word) : setMeterCirPir p arg ≠ .error .ok := by
  rw [setMeterCirPir_eq]
  split
  · exact nofun
  · split_ifs <;> exact nofun

theorem setMeterCbsPbs_codes (arg : Word) : setMeterCbsPbs p arg ≠ .error .ok := by
  rw [setMeterCbsPbs_eq]
  split
  · exact nofun
  · split_ifs <;> exact nofun

theorem nameStep_codes : Codes (nameStep p) := by
  intro s o
  unfold nameStep
  split
  · exact sgamCopyLabel_codes p o.optarg
  · exact nofun

theorem addAcctStep_codes : Codes (addAcctStep p) := by
  intro info o
  unfold addAcctStep
  split
  · exact map_ne_error_ok (sgamCopyLabel_codes p o.optarg)
  · exact nofun
  · exact nofun

theorem addMeterStep_codes : Codes (addMeterStep p) := by
  intro info o
  unfold addMeterStep
  split
  · exact map_ne_error_ok (sgamCopyLabel_codes p o.optarg)
  · exact map_ne_error_ok (setMeterMode_codes o.optarg)
  · exact map_ne_error_ok (setMeterCirPir_codes p o.optarg)
  · exact map_ne_error_ok (setMeterCirPir_codes p o.optarg)
  · exact map_ne_error_ok (setMeterCbsPbs_codes p o.optarg)
  · exact map_ne_error_ok (setMeterCbsPbs_codes p o.optarg)
  · exact map_ne_error_ok (setDscpRemarking_codes p o.optarg)
  · exact nofun

/-! ## The parsers -/

section Finish
variable {σ : Type} {check : σ → Code} {data : σ → Data} {step : σ → CmdOpts → Except Code σ}

@[simp] theorem finish_reads (r : Except Code σ × Nat) : (finish check data r).reads = r.2 := by
  unfold finish
  split <;> rfl

theorem walk_ne_error_ok (hcodes : Codes step) {s : σ} {os : List CmdOpts} :
    (walk step s os).1 ≠ .error .ok := by
  induction os generalizing s with
  | nil => exact nofun
  | cons o os ih =>
    rw [walk]
    split
    · rename_i c hc
      intro heq
      cases heq
      exact hcodes s o hc
    · exact ih

/-- What is submitted was walked to the end. -/
theorem walk_ok_of_finish (hcodes : Codes step) {s : σ} {os : List CmdOpts}
    (h : (finish check data (walk step s os)).code = .ok) : ∃ s', (walk step s os).1 = .ok s' := by
  unfold finish at h
  cases hwalk : (walk step s os).1 with
  | error c =>
    rw [hwalk] at h
    exact absurd (hwalk.trans (congrArg _ h)) (walk_ne_error_ok hcodes)
  | ok s' => exact ⟨s', rfl⟩

/-- A parser that stops at an entry of the table reads none behind it. -/
theorem finish_of_not {ok : CmdOpts → Prop} (hcodes : Codes step)
    (hbad : ∀ s o, ¬ ok o → ∃ c, step s o = .error c) {s : σ} {os : List CmdOpts} (rest : List CmdOpts)
    (h : ∃ o ∈ os, ¬ ok o) :
    (finish check data (walk step s (os ++ rest))).reads ≤ os.length ∧
      (finish check data (walk step s (os ++ rest))).code ≠ .ok := by
  obtain ⟨⟨c, hc⟩, hreads⟩ := walk_reads_of_not (s := s) hbad rest h
  refine ⟨Nat.le_trans (Nat.le_of_eq (finish_reads _)) hreads, fun hok => ?_⟩
  obtain ⟨s', hs'⟩ := walk_ok_of_finish hcodes hok
  rw [hc] at hs'
  cases hs'

end Finish

namespace Command

/-- The commands without a loop over the table. -/
def lists : Command → Bool
  | listacct | listmeter => true
  | _ => false

/-- Whether the loop of a command comes to the end of the entries: those of the show commands go on
after one that is refused. -/
def readsAll : Command → List CmdOpts → Prop
  | showacct, _ | showmeter, _ => True
  | cmd, stored => ∀ o ∈ stored, cmd.accepts p o = true

variable {p}

theorem parseOptions_reads_le {cmd : Command} {entries : List CmdOpts} :
    (cmd.parseOptions p entries).reads ≤ entries.length + 1 := by
  cases cmd with
  | addacct | addmeter | delacct | delmeter =>
    exact Nat.le_trans (Nat.le_of_eq (finish_reads _)) walk_reads_le
  | showacct | showmeter => exact Nat.le_of_eq walkOn_reads
  | listacct | listmeter => exact Nat.zero_le _

theorem addAcct_ok (info : AcctInfo) (o : CmdOpts) (h : addacct.accepts p o = true) :
    ∃ info', addAcctStep p info o = .ok info' :=
  (okCode_iff).mp ((okCode_addAcctStep p _ _ o).trans h)

theorem addAcct_error (info : AcctInfo) (o : CmdOpts) (h : ¬ addacct.accepts p o = true) :
    ∃ c, addAcctStep p info o = .error c :=
  (not_okCode_iff).mp (by rwa [okCode_addAcctStep p info ⟨[], 0⟩ o])

theorem addMeter_ok (info : MeterInfo) (o : CmdOpts) (h : addmeter.accepts p o = true) :
    ∃ info', addMeterStep p info o = .ok info' :=
  (okCode_iff).mp ((okCode_addMeterStep p _ _ o).trans h)

theorem addMeter_error (info : MeterInfo) (o : CmdOpts) (h : ¬ addmeter.accepts p o = true) :
    ∃ c, addMeterStep p info o = .error c :=
  (not_okCode_iff).mp (by rwa [okCode_addMeterStep p info clearedMeter o])

/-- A full table whose entries are all accepted is read behind its end. -/
theorem lt_reads_of_readsAll {cmd : Command} (hlists : cmd.lists = false) {stored : List CmdOpts}
    (rest : List CmdOpts) (h : cmd.readsAll p stored) : stored.length < (cmd.parseOptions p (stored ++ rest)).reads := by
  cases cmd with
  | listacct | listmeter => cases hlists
  | showacct | showmeter =>
    refine Nat.lt_of_lt_of_eq ?_ (walkOn_reads).symm
    simp only [List.length_append]
    omega
  | addacct =>
    exact Nat.lt_of_lt_of_eq (lt_walk_reads_of_all addAcct_ok h) (finish_reads _).symm
  | addmeter =>
    exact Nat.lt_of_lt_of_eq (lt_walk_reads_of_all addMeter_ok h) (finish_reads _).symm
  | delacct | delmeter =>
    exact Nat.lt_of_lt_of_eq (lt_walk_reads_of_all (fun _ _ => (okCode_iff).mp) h) (finish_reads _).symm

/-- A table with an entry at which the parser stops is not read behind its end. -/
theorem reads_le_of_not_readsAll {cmd : Command} (hlists : cmd.lists = false) {stored : List CmdOpts}
    (rest : List CmdOpts) (h : ¬ cmd.readsAll p stored) : (cmd.parseOptions p (stored ++ rest)).reads ≤ stored.length ∧
      (cmd.parseOptions p (stored ++ rest)).code ≠ .ok := by
  cases cmd with
  | listacct | listmeter => cases hlists
  | showacct | showmeter => exact absurd trivial h
  | addacct =>
    simp only [readsAll, not_forall, exists_prop] at h
    exact finish_of_not (addAcctStep_codes p) addAcct_error rest h
  | addmeter =>
    simp only [readsAll, not_forall, exists_prop] at h
    exact finish_of_not (addMeterStep_codes p) addMeter_error rest h
  | delacct | delmeter =>
    simp only [readsAll, not_forall, exists_prop] at h
    exact finish_of_not (nameStep_codes p) (fun _ _ => (not_okCode_iff).mp) rest h

end Command

/-! ## Filling the table -/

theorem length_fillTable_le {n : Nat} {answers : List Answer} : (fillTable n answers).stored.length ≤ n := by
  fun_induction fillTable n answers with
  | case1 | case2 | case3 | case4 | case6 => simp
  | case5 n rest filled ih | case7 n c arg rest hc filled ih => exact Nat.succ_le_succ ih

/-- All options are asked for while there is room. -/
theorem rest_fillTable {n : Nat} {answers : List Answer} (hcode : (fillTable n answers).code = .ok)
    (hroom : (fillTable n answers).stored.length < n) : (fillTable n answers).rest = [] := by
  fun_induction fillTable n answers with
  | case1 => exact absurd hroom (Nat.lt_irrefl 0)
  | case2 => rfl
  | case3 | case4 | case6 => cases hcode
  | case5 n rest filled ih | case7 n c arg rest hc filled ih => exact ih hcode (Nat.lt_of_succ_lt_succ hroom)

theorem code_of_full {n : Nat} {answers : List Answer} (h : (fillTable n answers).stored.length = n) :
    (fillTable n answers).code = .ok := by
  fun_induction fillTable n answers with
  | case1 | case2 => rfl
  | case3 | case4 | case6 => cases h
  | case5 n rest filled ih | case7 n c arg rest hc filled ih => exact ih (Nat.succ_injective h)

/-- The entry for an answer that does not end the loop. -/
def entryOf : Answer → Option CmdOpts
  | .missing => some ⟨':', []⟩
  | .option c arg => if c = 'h' then none else some ⟨c, arg⟩
  | .word _ | .refused => none

/-- The table is filled with the first options if none of these answers ends the loop. -/
theorem fillTable_ok_iff {n : Nat} {answers : List Answer} {opts : List CmdOpts} :
    ((fillTable n answers).code = .ok ∧ (fillTable n answers).stored = opts) ↔
      (answers.take n).map entryOf = opts.map some := by
  fun_induction fillTable n answers generalizing opts with
  | case1 | case2 => cases opts <;> simp
  | case3 | case4 => cases opts <;> simp [entryOf]
  | case6 => cases opts <;> simp [entryOf]
  | case5 n rest filled =>
    rename_i ih
    cases opts with
    | nil => simp
    | cons o os =>
      simp only [List.cons.injEq, List.take_succ_cons, List.map_cons, entryOf, Option.some.injEq, ← ih, filled]
      exact and_left_comm
  | case7 n c arg rest hc filled =>
    rename_i ih
    cases opts with
    | nil => simp
    | cons o os =>
      simp only [List.cons.injEq, List.take_succ_cons, List.map_cons, entryOf, if_neg hc, Option.some.injEq,
        ← ih, filled]
      exact and_left_comm

theorem stored_eq_nil {n : Nat} {answers : List Answer}
    (h : ∀ a ∈ answers, a ≠ .missing ∧ ∀ c arg, a = .option c arg → c = 'h') :
    (fillTable n answers).stored = [] := by
  fun_induction fillTable n answers with
  | case1 | case2 | case3 | case4 | case6 => rfl
  | case5 n rest filled ih => exact absurd rfl (h _ List.mem_cons_self).1
  | case7 n c arg rest hc filled ih => exact absurd ((h _ List.mem_cons_self).2 c arg rfl) hc

/-- The list commands know no option but the help. -/
theorem stored_of_lists {cmd : Command} (h : cmd.lists = true) (words : List Word) :
    (sgamParseCmd cmd words).stored = [] := by
  have hplain (o : Options) (ho : o = ⟨"h", [⟨"help", false, 'h'⟩]⟩) :
      ∀ a ∈ inOrder o none words, a ≠ .missing ∧ ∀ c arg, a = .option c arg → c = 'h' := by
    subst ho
    apply inOrder_plain
    · intro c b hb
      change shortOption ['h'] c = some b at hb
      unfold shortOption at hb
      split at hb
      · rename_i hc
        simp only [Option.some.injEq] at hb
        exact ⟨hb.symm, hc.1.symm⟩
      · cases hb
    · intro l hl
      simp only [List.mem_singleton] at hl
      subst hl
      exact ⟨rfl, rfl⟩
  cases cmd with
  | listacct | listmeter => exact stored_eq_nil (hplain _ rfl)
  | _ => cases h

/-! ## The command line -/

/-- The options that are stored fit in the table, the parser's loop reads no entry behind it, and a
command that is accepted has all its options there. -/
structure TableRight (e : Env) (av : List Word) : Prop where
  stored : ∀ name words cmd, av = name :: words → getSgamCmd name = some cmd →
    (sgamParseCmd cmd words).stored.length ≤ sgamMaxCmdOpts
  reads : (sgamParseCmdLine p e av).reads ≤ sgamMaxCmdOpts
  asked : (sgamParseCmdLine p e av).code = .ok → ∀ name words cmd, av = name :: words →
    getSgamCmd name = some cmd → (sgamParseCmd cmd words).rest = []

/-- The first answers to the words are as many options as the table holds, and the loop of the command
refuses none of them or goes on when it does. -/
def Overfull (e : Env) (av : List Word) : Prop :=
  e.optsAlloc = true ∧ e.dataAlloc = true ∧ ∃ name words cmd opts, av = name :: words ∧
    getSgamCmd name = some cmd ∧ opts.length = sgamMaxCmdOpts ∧
    ((inOrder cmd.options none words).take sgamMaxCmdOpts).map entryOf = opts.map some ∧ cmd.readsAll p opts

variable {p}

theorem sgamParseCmdLine_cons {e : Env} (he : e.optsAlloc = true) {name : Word} {words : List Word}
    {cmd : Command} (hcmd : getSgamCmd name = some cmd) :
    sgamParseCmdLine p e (name :: words) = parseCommand p e cmd words := by
  rw [sgamParseCmdLine, if_pos he, hcmd]

theorem parseCommand_of_ok {e : Env} (he : e.dataAlloc = true) {cmd : Command} {words : List Word}
    (hcode : (sgamParseCmd cmd words).code = .ok) :
    parseCommand p e cmd words = cmd.parseOptions p (e.entries (sgamParseCmd cmd words).stored) := by
  rw [parseCommand, hcode]
  exact if_pos he

theorem entries_of_room (e : Env) {stored : List CmdOpts} (h : stored.length < sgamMaxCmdOpts) :
    e.entries stored = stored := if_pos h

theorem entries_of_full (e : Env) {stored : List CmdOpts} (h : stored.length = sgamMaxCmdOpts) :
    e.entries stored = stored ++ e.behind := if_neg (Nat.not_lt.mpr (Nat.le_of_eq h.symm))

/-- A command whose options fill the table is no list command. -/
theorem lists_of_full {cmd : Command} {words : List Word}
    (h : (sgamParseCmd cmd words).stored.length = sgamMaxCmdOpts) : cmd.lists = false := by
  cases hlists : cmd.lists with
  | false => rfl
  | true =>
    rw [stored_of_lists hlists words] at h
    cases h

theorem parseCommand_right {e : Env} {cmd : Command} {words : List Word}
    (h : ¬ (e.dataAlloc = true ∧ (sgamParseCmd cmd words).stored.length = sgamMaxCmdOpts ∧
      cmd.readsAll p (sgamParseCmd cmd words).stored)) :
    (parseCommand p e cmd words).reads ≤ sgamMaxCmdOpts ∧
      ((parseCommand p e cmd words).code = .ok → (sgamParseCmd cmd words).rest = []) := by
  cases hcode : (sgamParseCmd cmd words).code with
  | help | notAvail | err => simp [parseCommand, hcode]
  | ok =>
    cases he : e.dataAlloc with
    | false => simp [parseCommand, hcode, he]
    | true =>
      rw [parseCommand_of_ok he hcode]
      have hle : (sgamParseCmd cmd words).stored.length ≤ sgamMaxCmdOpts := length_fillTable_le
      rcases Nat.lt_or_eq_of_le hle with hroom | hfull
      · rw [entries_of_room e hroom]
        exact ⟨Nat.le_trans Command.parseOptions_reads_le hroom, fun _ => rest_fillTable hcode hroom⟩
      · rw [entries_of_full e hfull]
        have hnot : ¬ cmd.readsAll p (sgamParseCmd cmd words).stored := fun hall => h ⟨he, hfull, hall⟩
        obtain ⟨hreads, hbad⟩ :=
          Command.reads_le_of_not_readsAll (lists_of_full hfull) e.behind hnot
        exact ⟨Nat.le_trans hreads hle, fun hok => absurd hok hbad⟩

/-- The table suffices unless the options fill it and the loop of the command comes to its end. -/
theorem tableRight_iff (e : Env) (av : List Word) : TableRight p e av ↔ ¬ Overfull p e av := by
  constructor
  · intro h ⟨hopts, hdata, name, words, cmd, opts, hav, hcmd, hlen, hfirst, hall⟩
    have hstored : (sgamParseCmd cmd words).stored = opts := ((fillTable_ok_iff).mpr hfirst).2
    have hfull : (sgamParseCmd cmd words).stored.length = sgamMaxCmdOpts := hstored ▸ hlen
    rw [← hstored] at hall
    have hreads := h.reads
    rw [hav, sgamParseCmdLine_cons hopts hcmd, parseCommand_of_ok hdata (code_of_full hfull),
      entries_of_full e hfull] at hreads
    have hlt := Command.lt_reads_of_readsAll (lists_of_full hfull) e.behind hall
    omega
  · intro h
    have hright : ∀ name words cmd, av = name :: words → getSgamCmd name = some cmd → e.optsAlloc = true →
        (parseCommand p e cmd words).reads ≤ sgamMaxCmdOpts ∧
          ((parseCommand p e cmd words).code = .ok → (sgamParseCmd cmd words).rest = []) :=
      fun name words cmd hav hcmd hopts => parseCommand_right fun ⟨hdata, hfull, hall⟩ =>
        h ⟨hopts, hdata, name, words, cmd, _, hav, hcmd, hfull, (fillTable_ok_iff).mp ⟨code_of_full hfull, rfl⟩, hall⟩
    refine ⟨fun _ _ _ _ _ => length_fillTable_le, ?_, ?_⟩
    · cases av with
      | nil => exact Nat.zero_le _
      | cons name words =>
        rw [sgamParseCmdLine]
        split
        · rename_i hopts
          split
          · exact Nat.zero_le _
          · rename_i cmd hcmd
            exact (hright name words cmd rfl hcmd hopts).1
        · exact Nat.zero_le _
    · rintro hok name words cmd rfl hcmd
      cases hopts : e.optsAlloc with
      | false => simp [sgamParseCmdLine, hopts] at hok
      | true =>
        rw [sgamParseCmdLine_cons hopts hcmd] at hok
        exact (hright name words cmd rfl hcmd hopts).2 hok

/-- A meter with all the options of the help text. -/
def fullMeter : List Word :=
  [['a', 'd', 'd', 'm', 'e', 't', 'e', 'r'], ['-', 'n', 'x'], ['-', 'm', 't', 'r', 't', 'c', 'm', '_', 'c', 'a'],
    ['-', 'c', '1', 'm'], ['-', 'p', '2', 'm'], ['-', 'C', '1'], ['-', 'P', '2'], ['-', 'R', '5']]

theorem not_tableRight_fullMeter : ¬ TableRight lp64 ⟨true, true, []⟩ fullMeter := by
  intro h
  have hreads : ¬ (sgamParseCmdLine lp64 ⟨true, true, []⟩ fullMeter).reads ≤ sgamMaxCmdOpts := by decide +kernel
  exact hreads h.reads

end Sgam
