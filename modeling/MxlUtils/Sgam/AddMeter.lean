import MxlUtils.Sgam.OptionTable

/- The meter that `addmeter` submits. Its options are counted and not noted one by one: one that is
   given twice stands in for one that is missing, six of them pass without the check of the peaks
   and with the default of the remark, whatever they are, and more than six without a remark leave
   it cleared. `meterRight_iff` says which command lines that concerns. -/
namespace Sgam
open CString Getopt

variable (p : Platform)

/-! ## The last of each option -/

def lastOpt (c : Char) (es : List CmdOpts) : Option CmdOpts := (es.filter (·.opt = c)).getLast?

theorem lastOpt_cons (c : Char) (o : CmdOpts) (es : List CmdOpts) :
    lastOpt c (o :: es) = (lastOpt c es).or (if o.opt = c then some o else none) := by
  unfold lastOpt
  by_cases h : o.opt = c
  · rw [List.filter_cons_of_pos (by simpa using h), List.getLast?_cons, if_pos h]
    cases (es.filter (·.opt = c)).getLast? <;> rfl
  · rw [List.filter_cons_of_neg (by simpa using h), if_neg h, Option.or_none]

theorem lastOpt_mem {c : Char} {es : List CmdOpts} {o : CmdOpts} (h : lastOpt c es = some o) :
    o ∈ es ∧ o.opt = c := by
  have hmem := List.mem_filter.mp (List.mem_of_getLast? h)
  exact ⟨hmem.1, by simpa using hmem.2⟩

/-- What an option sets in a meter that is cleared. -/
def taken : Option CmdOpts → MeterInfo
  | none => clearedMeter
  | some o => (addMeterStep p clearedMeter o).toOption.getD clearedMeter

/-- The meter with the last of each of its options. -/
def meterOf (es : List CmdOpts) : MeterInfo :=
  { clearedMeter with
    name := (taken p (lastOpt 'n' es)).name
    mtrType := (taken p (lastOpt 'm' es)).mtrType
    cir := (taken p (lastOpt 'c' es)).cir
    pir := (taken p (lastOpt 'p' es)).pir
    cbs := (taken p (lastOpt 'C' es)).cbs
    pbs := (taken p (lastOpt 'P' es)).pbs
    remarkDscp := (taken p (lastOpt 'R' es)).remarkDscp }

section Fields
variable {p}

theorem map_ok_iff {α β : Type} {f : α → β} {r : Except Code α} {b : β} :
    r.map f = .ok b ↔ ∃ a, r = .ok a ∧ f a = b := by
  cases r <;> simp [Except.map]

/-- What an option that is accepted does: it sets the field of its letter to a value of its own. -/
theorem addMeterStep_cases {s s' : MeterInfo} {o : CmdOpts} (h : addMeterStep p s o = .ok s') :
    (o.opt = 'n' ∧ s' = { s with name := (taken p (some o)).name }) ∨
    (o.opt = 'm' ∧ s' = { s with mtrType := (taken p (some o)).mtrType }) ∨
    (o.opt = 'c' ∧ s' = { s with cir := (taken p (some o)).cir }) ∨
    (o.opt = 'p' ∧ s' = { s with pir := (taken p (some o)).pir }) ∨
    (o.opt = 'C' ∧ s' = { s with cbs := (taken p (some o)).cbs }) ∨
    (o.opt = 'P' ∧ s' = { s with pbs := (taken p (some o)).pbs }) ∨
    (o.opt = 'R' ∧ s' = { s with remarkDscp := (taken p (some o)).remarkDscp }) := by
  obtain ⟨c, arg⟩ := o
  unfold addMeterStep at h
  split at h
  all_goals
    first
    | cases h
    | rename_i hc
      obtain ⟨v, hv, rfl⟩ := (map_ok_iff).mp h
      dsimp only at hc hv
      subst hc
      simp [taken, addMeterStep, hv, Except.map, Except.toOption]

/-- A field behind a walk: the last entry with its letter has set it, or it is what it was. -/
def pick {α : Type} (f : MeterInfo → α) (c : Char) (s : MeterInfo) (es : List CmdOpts) : α :=
  (lastOpt c es).elim (f s) fun o => f (taken p (some o))

theorem elim_or_some {α β : Type} (x : Option α) (a : α) (b : β) (g : α → β) :
    (x.or (some a)).elim b g = x.elim (g a) g := by
  cases x <;> rfl

/-- All fields behind a walk. -/
def overlay (s : MeterInfo) (es : List CmdOpts) : MeterInfo :=
  { s with
    name := pick (p := p) MeterInfo.name 'n' s es
    mtrType := pick (p := p) MeterInfo.mtrType 'm' s es
    cir := pick (p := p) MeterInfo.cir 'c' s es
    pir := pick (p := p) MeterInfo.pir 'p' s es
    cbs := pick (p := p) MeterInfo.cbs 'C' s es
    pbs := pick (p := p) MeterInfo.pbs 'P' s es
    remarkDscp := pick (p := p) MeterInfo.remarkDscp 'R' s es }

theorem overlay_step {s s' : MeterInfo} {o : CmdOpts} (h : addMeterStep p s o = .ok s') (es : List CmdOpts) :
    overlay (p := p) s' es = overlay (p := p) s (o :: es) := by
  rcases addMeterStep_cases h with ⟨hc, rfl⟩ | ⟨hc, rfl⟩ | ⟨hc, rfl⟩ | ⟨hc, rfl⟩ | ⟨hc, rfl⟩ | ⟨hc, rfl⟩ | ⟨hc, rfl⟩ <;>
    simp only [overlay, pick, lastOpt_cons, hc, Char.reduceEq, if_true, if_false, Option.or_none, elim_or_some]

theorem walk_eq_overlay {s s' : MeterInfo} {es : List CmdOpts}
    (h : (walk (addMeterStep p) s es).1 = .ok s') : s' = overlay (p := p) s es := by
  induction es generalizing s with
  | nil => exact (Except.ok.inj h).symm
  | cons o es ih =>
    rw [walk] at h
    cases hstep : addMeterStep p s o with
    | error c => simp [hstep] at h
    | ok s₁ =>
      rw [hstep] at h
      rw [ih h, overlay_step hstep]

theorem pick_cleared {α : Type} {f : MeterInfo → α} {c : Char} {es : List CmdOpts} :
    pick (p := p) f c clearedMeter es = f (taken p (lastOpt c es)) := by
  unfold pick
  cases lastOpt c es <;> rfl

/-- A walk that refuses nothing leaves the meter with the last of each option. -/
theorem walk_eq_meterOf {info : MeterInfo} {es : List CmdOpts}
    (h : (walk (addMeterStep p) clearedMeter es).1 = .ok info) : info = meterOf p es := by
  rw [walk_eq_overlay h]
  simp only [overlay, meterOf, pick_cleared]

end Fields

/-! ## What the options say -/

def mandatory : List Char := ['n', 'm', 'c', 'p', 'C', 'P']

def MeterType.text : MeterType → Word
  | .trtcmCa => "trtcm_ca".toList
  | .trtcmCb => "trtcm_cb".toList
  | .dtrtcmCa => "dtrtcm_ca".toList
  | .dtrtcmCb => "dtrtcm_cb".toList

/-- A mandatory option as it should be written. -/
def WellFormed (o : CmdOpts) : Prop :=
  match o.opt with
  | 'n' => o.optarg.length ≤ p.maxLabelLen
  | 'm' => ∃ t : MeterType, o.optarg = t.text
  | 'c' | 'p' => ∃ n u, RateText o.optarg n u
  | 'C' | 'P' => ∃ n u, BurstText o.optarg n u
  | _ => True

def RateSays (arg : Word) (rate : BitVec 64) : Prop := ∃ n u, RateText arg n u ∧ rate.toNat = n * u.bytes

def BurstSays (arg : Word) (size : BitVec 32) : Prop := ∃ n u, BurstText arg n u ∧ size.toNat = n * u.bytes

/-- The meter has the value that an option gives. -/
def Says (o : CmdOpts) (info : MeterInfo) : Prop :=
  match o.opt with
  | 'n' => info.name = o.optarg
  | 'm' => o.optarg = info.mtrType.text
  | 'c' => RateSays o.optarg info.cir
  | 'p' => RateSays o.optarg info.pir
  | 'C' => BurstSays o.optarg info.cbs
  | 'P' => BurstSays o.optarg info.pbs
  | 'R' => DigitText o.optarg ∧ decimal o.optarg = info.remarkDscp.toNat
  | _ => True

section Says
variable {p}

theorem remarkMeter_of_ne {n : Nat} (h : n ≠ 6) (info : MeterInfo) : remarkMeter n info = info := if_neg h

theorem remarkMeter_six (info : MeterInfo) :
    remarkMeter 6 info = { info with remarkDscp := BitVec.ofNat 8 maxDscp } := rfl

/-- What an option says of a meter is about the field of its letter. -/
theorem says_remarkMeter {o : CmdOpts} {n : Nat} {es : List CmdOpts} (h : o.opt = 'R' → n ≠ 6) :
    Says o (remarkMeter n (meterOf p es)) ↔ Says o (taken p (lastOpt o.opt es)) := by
  by_cases hn : n = 6
  · obtain ⟨c, arg⟩ := o
    rw [hn, remarkMeter_six]
    unfold Says
    dsimp only
    split <;> first | exact Iff.rfl | exact absurd hn (h rfl)
  · obtain ⟨c, arg⟩ := o
    rw [remarkMeter_of_ne hn]
    unfold Says
    dsimp only
    split <;> exact Iff.rfl

theorem setDscpRemarking_ok {arg : Word} {v : BitVec 8} (h : setDscpRemarking p arg = .ok v) :
    strtoul10 p.longBits arg % 2 ^ 32 < maxDscp ∧ v = BitVec.ofNat 8 (strtoul10 p.longBits arg % 2 ^ 32) := by
  unfold setDscpRemarking at h
  dsimp only at h
  split_ifs at h with h1 h2 h3
  obtain rfl := Except.ok.inj h
  exact ⟨Nat.lt_of_not_le h3, rfl⟩

theorem addMeterStep_remark {s s' : MeterInfo} {o : CmdOpts} (h : addMeterStep p s o = .ok s') :
    (o.opt ≠ 'R' ∧ s'.remarkDscp = s.remarkDscp) ∨
      (o.opt = 'R' ∧ setDscpRemarking p o.optarg = .ok s'.remarkDscp) := by
  unfold addMeterStep at h
  split at h
  case h_8 => cases h
  case h_7 hc =>
    obtain ⟨v, hv, rfl⟩ := (map_ok_iff).mp h
    exact .inr ⟨hc, hv⟩
  all_goals
    rename_i hc
    obtain ⟨v, hv, rfl⟩ := (map_ok_iff).mp h
    exact .inl ⟨by rw [hc]; decide, rfl⟩

theorem taken_eq {o : CmdOpts} {s : MeterInfo} (h : addMeterStep p clearedMeter o = .ok s) :
    taken p (some o) = s := by
  rw [taken, h]
  rfl

theorem taken_of_error {o : CmdOpts} {c : Code} (h : addMeterStep p clearedMeter o = .error c) :
    taken p (some o) = clearedMeter := by
  rw [taken, h]
  rfl

/-- No option sets the default of the remark. -/
theorem taken_remarkDscp_lt (o : Option CmdOpts) : (taken p o).remarkDscp.toNat < maxDscp := by
  have hcleared : clearedMeter.remarkDscp.toNat < maxDscp := by decide
  cases o with
  | none => exact hcleared
  | some o =>
    cases h : addMeterStep p clearedMeter o with
    | error c =>
      rw [taken_of_error h]
      exact hcleared
    | ok s =>
      rw [taken_eq h]
      rcases addMeterStep_remark h with ⟨-, hkept⟩ | ⟨-, hset⟩
      · rw [hkept]
        exact hcleared
      · obtain ⟨hlt, hv⟩ := setDscpRemarking_ok hset
        rw [hv, BitVec.toNat_ofNat, Nat.mod_eq_of_lt (Nat.lt_trans hlt (by decide))]
        exact hlt

/-- The default of the remark, written out, is refused. -/
theorem not_accepts_maxDscp {arg : Word} (hdigits : DigitText arg) (hvalue : decimal arg = maxDscp) :
    Command.addmeter.accepts p ⟨'R', arg⟩ = false := by
  have hlong : (2 : Nat) ^ 32 ≤ 2 ^ p.longBits := Nat.pow_le_pow_right (by decide) (by have := p.int_le_long; omega)
  have hread : strtoul10 p.longBits arg % 2 ^ 32 = maxDscp := by
    rw [strtoul10_digits hdigits, hvalue, maxDscp]
    omega
  cases h : Command.addmeter.accepts p ⟨'R', arg⟩ with
  | false => rfl
  | true =>
    obtain ⟨s, hs⟩ := Command.addMeter_ok clearedMeter _ h
    rcases addMeterStep_remark hs with ⟨hne, -⟩ | ⟨-, hset⟩
    · exact absurd rfl hne
    · have hlt := (setDscpRemarking_ok hset).1
      rw [hread] at hlt
      exact absurd hlt (Nat.lt_irrefl _)

theorem rateSays_of_ok {arg : Word} {v : BitVec 64} (h : setMeterCirPir p arg = .ok v)
    (htext : ∃ n u, RateText arg n u) : RateSays arg v := by
  obtain ⟨n, u, htext⟩ := htext
  rw [setMeterCirPir_of_rateText htext] at h
  obtain rfl := Except.ok.inj h
  exact ⟨n, u, htext, (toNat_rate htext.lt).1⟩

/-- A long that is longer than an int keeps every burst. -/
theorem tmpSize_of_long {arg : Word} {n : Nat} {u : BurstUnit} (hlong : 32 < p.longBits)
    (htext : BurstText arg n u) : (tmpSize p arg).toNat = n := by
  have hlt := htext.lt
  have hmax : u.max ≤ 4294967295 := by
    cases u <;> simp [BurstUnit.max, maxBurst_eq, maxBurstK_eq]
  have hpow : 2 ^ 32 ≤ 2 ^ (p.longBits - 1) := Nat.pow_le_pow_right (by omega) (by omega)
  have hread : strtol p.longBits arg = n := by
    rw [strtol_burst htext.unit htext.digits, htext.value]
    exact clamp_of_lt (by omega)
  rw [tmpSize, hread, BitVec.toNat_ofInt]
  omega

theorem burstSays_of_ok {arg : Word} {v : BitVec 32} (hlong : 32 < p.longBits)
    (h : setMeterCbsPbs p arg = .ok v) (htext : ∃ n u, BurstText arg n u) : BurstSays arg v := by
  obtain ⟨n, u, htext⟩ := htext
  rw [setMeterCbsPbs_of_burstText htext (tmpSize_of_long hlong htext)] at h
  obtain rfl := Except.ok.inj h
  exact ⟨n, u, htext, toNat_size htext.lt⟩

theorem text_of_setMeterMode {arg : Word} {t : MeterType} (h : setMeterMode arg = .ok t) : arg = t.text := by
  unfold setMeterMode at h
  split_ifs at h with h1 h2 h3 h4 <;> obtain rfl := Except.ok.inj h <;> assumption

theorem name_of_sgamCopyLabel {arg v : Word} (h : sgamCopyLabel p arg = .ok v) : v = arg := by
  unfold sgamCopyLabel at h
  split at h
  · cases h
  · exact (Except.ok.inj h).symm

/-- An option that is accepted and well formed is taken as it is written, where a long has more bits
than an int. -/
theorem says_of_wellFormed {o : CmdOpts} (hlong : 32 < p.longBits) (hR : o.opt ≠ 'R')
    (haccepts : Command.addmeter.accepts p o = true) (hformed : WellFormed p o) :
    Says o (taken p (some o)) := by
  obtain ⟨s, hs⟩ := Command.addMeter_ok clearedMeter o haccepts
  rw [taken_eq hs]
  obtain ⟨c, arg⟩ := o
  unfold addMeterStep at hs
  dsimp only at hs hR
  split at hs
  case h_8 => cases hs
  case h_7 => exact absurd rfl hR
  all_goals
    obtain ⟨v, hv, rfl⟩ := (map_ok_iff).mp hs
  · exact name_of_sgamCopyLabel hv
  · exact text_of_setMeterMode hv
  · exact rateSays_of_ok hv hformed
  · exact rateSays_of_ok hv hformed
  · exact burstSays_of_ok hlong hv hformed
  · exact burstSays_of_ok hlong hv hformed

end Says

/-! ## What is submitted -/

def optionOf : Answer → Option CmdOpts
  | .option c arg => some ⟨c, arg⟩
  | _ => none

/-- The answers to the words behind `addmeter`, and the options among them. -/
def answersOf (words : List Word) : List Answer := inOrder Command.addmeter.options none words

def userOpts (words : List Word) : List CmdOpts := (answersOf words).filterMap optionOf

/-- A meter as the options ask for it. -/
structure MeterRight (words : List Word) (info : MeterInfo) : Prop where
  given : ∀ c ∈ mandatory, ∃ o ∈ userOpts words, o.opt = c
  complete : Answer.missing ∉ answersOf words
  formed : ∀ o ∈ userOpts words, WellFormed p o
  carries : ∀ c o, lastOpt c (userOpts words) = some o → Says o info
  noRemark : (∀ o ∈ userOpts words, o.opt ≠ 'R') → info.remarkDscp.toNat = maxDscp
  rates : info.cir.toNat ≤ info.pir.toNat
  bursts : info.cbs.toNat ≤ info.pbs.toNat

/-- The first answers are options, as many as the table takes. -/
def Stored (words : List Word) (opts : List CmdOpts) : Prop :=
  ((answersOf words).take sgamMaxCmdOpts).map entryOf = opts.map some

/-- The peaks of the last entries are not below their committed values. -/
def Peaks (es : List CmdOpts) : Prop :=
  (taken p (lastOpt 'c' es)).cir.toNat ≤ (taken p (lastOpt 'p' es)).pir.toNat ∧
    (taken p (lastOpt 'C' es)).cbs.toNat ≤ (taken p (lastOpt 'P' es)).pbs.toNat

/-- The entries pass the checks of the parser. -/
structure Passes (es : List CmdOpts) : Prop where
  accepts : ∀ o ∈ es, Command.addmeter.accepts p o = true
  count : 6 ≤ es.length
  peaks : es.length ≠ 6 → Peaks p es

section Submitted
variable {p}

theorem not_accepts_missing : Command.addmeter.accepts p ⟨':', []⟩ = false := rfl

/-- In a table with room there are all options, if those in it are accepted. -/
theorem userOpts_of_room {words : List Word} {opts : List CmdOpts} (hstored : Stored words opts)
    (hroom : opts.length < sgamMaxCmdOpts) (haccepts : ∀ o ∈ opts, Command.addmeter.accepts p o = true) :
    userOpts words = opts := by
  have hall : (answersOf words).take sgamMaxCmdOpts = answersOf words := by
    have hlen := congrArg List.length hstored
    simp only [List.length_map, List.length_take] at hlen
    exact List.take_of_length_le (by omega)
  have hanswer : ∀ a o, entryOf a = some o → Command.addmeter.accepts p o = true → optionOf a = some o := by
    intro a o ha ho
    cases a with
    | missing =>
      obtain rfl := Option.some.inj ha
      rw [not_accepts_missing] at ho
      cases ho
    | option c arg =>
      rw [entryOf] at ha
      split at ha
      · cases ha
      · exact ha
    | word w => cases ha
    | refused => cases ha
  rw [Stored, hall] at hstored
  unfold userOpts
  clear hroom hall
  generalize answersOf words = answers at hstored
  induction opts generalizing answers with
  | nil =>
    rw [List.map_nil, List.map_eq_nil_iff] at hstored
    rw [hstored]
    rfl
  | cons o os ih =>
    cases answers with
    | nil => cases hstored
    | cons a answers =>
      simp only [List.map_cons, List.cons.injEq] at hstored
      rw [List.filterMap_cons_some (hanswer a o hstored.1 (haccepts o List.mem_cons_self)),
        ih (fun o' ho' => haccepts o' (List.mem_cons_of_mem o ho')) answers hstored.2]

theorem lists_addmeter : Command.addmeter.lists = false := rfl

/-- A walk over entries that are accepted ends with the meter of these. -/
theorem walk_of_accepts {es : List CmdOpts} (h : ∀ o ∈ es, Command.addmeter.accepts p o = true) :
    (walk (addMeterStep p) clearedMeter es).1 = .ok (meterOf p es) := by
  have hok : ∃ info, (walk (addMeterStep p) clearedMeter es).1 = .ok info := by
    generalize clearedMeter = s
    induction es generalizing s with
    | nil => exact ⟨s, rfl⟩
    | cons o es ih =>
      obtain ⟨s', hs'⟩ := Command.addMeter_ok s o (h o List.mem_cons_self)
      rw [walk, hs']
      exact ih (fun o' ho' => h o' (List.mem_cons_of_mem o ho')) s'
  obtain ⟨info, hinfo⟩ := hok
  rw [hinfo, walk_eq_meterOf hinfo]

theorem accepts_of_walk {es : List CmdOpts} {info : MeterInfo}
    (h : (walk (addMeterStep p) clearedMeter es).1 = .ok info) :
    ∀ o ∈ es, Command.addmeter.accepts p o = true := by
  by_contra hnot
  simp only [not_forall, exists_prop] at hnot
  obtain ⟨⟨c, hc⟩, -⟩ := walk_reads_of_not (s := clearedMeter) Command.addMeter_error [] hnot
  rw [List.append_nil, h] at hc
  cases hc

theorem peaks_iff {es : List CmdOpts} : Peaks p es ↔
    (meterOf p es).cir.toNat ≤ (meterOf p es).pir.toNat ∧ (meterOf p es).cbs.toNat ≤ (meterOf p es).pbs.toNat :=
  Iff.rfl

theorem checkMeter_ok_iff {es : List CmdOpts} : checkMeter es.length (meterOf p es) = .ok ↔
    6 ≤ es.length ∧ (es.length ≠ 6 → Peaks p es) := by
  unfold checkMeter
  split_ifs with h1 h2 h3
  · simp only [reduceCtorEq, false_iff]
    omega
  · simp only [true_iff]
    omega
  · simp only [reduceCtorEq, false_iff]
    rintro ⟨-, hpeaks⟩
    have hle := (peaks_iff).mp (hpeaks h2)
    omega
  · simp only [true_iff]
    refine ⟨by omega, fun _ => (peaks_iff).mpr ?_⟩
    omega

/-- The meter that is submitted for entries. -/
theorem sgamParseAddMeterCmd_data {es : List CmdOpts} {info : MeterInfo} :
    (sgamParseAddMeterCmd p es).data = some (.meter info) ↔
      Passes p es ∧ info = remarkMeter es.length (meterOf p es) := by
  unfold sgamParseAddMeterCmd finish
  constructor
  · intro h
    cases hwalk : (walk (addMeterStep p) clearedMeter es).1 with
    | error c => simp [hwalk] at h
    | ok s =>
      have haccepts := accepts_of_walk hwalk
      obtain rfl := walk_eq_meterOf hwalk
      simp only [hwalk] at h
      split at h
      · rename_i hcheck
        obtain ⟨hcount, hpeaks⟩ := (checkMeter_ok_iff).mp hcheck
        simp only [Option.some.injEq, Data.meter.injEq] at h
        exact ⟨⟨haccepts, hcount, hpeaks⟩, h.symm⟩
      · cases h
  · rintro ⟨⟨haccepts, hcount, hpeaks⟩, rfl⟩
    rw [walk_of_accepts haccepts]
    exact if_pos ((checkMeter_ok_iff).mpr ⟨hcount, hpeaks⟩)

/-- What the first options make of the table, and whether there is one. -/
theorem addmeter_data {e : Env} {words : List Word} {info : MeterInfo} :
    (sgamParseCmdLine p e (Command.addmeter.name :: words)).data = some (.meter info) ↔
      e.optsAlloc = true ∧ e.dataAlloc = true ∧ ∃ opts, Stored words opts ∧ Passes p (e.entries opts) ∧
        info = remarkMeter (e.entries opts).length (meterOf p (e.entries opts)) := by
  have hcmd : getSgamCmd Command.addmeter.name = some .addmeter := by decide
  have htable (opts : List CmdOpts) : Stored words opts ↔
      (sgamParseCmd .addmeter words).code = .ok ∧ (sgamParseCmd .addmeter words).stored = opts :=
    (fillTable_ok_iff).symm
  cases hopts : e.optsAlloc with
  | false => simp [sgamParseCmdLine, hopts]
  | true =>
    rw [sgamParseCmdLine_cons hopts hcmd]
    cases hcode : (sgamParseCmd .addmeter words).code with
    | help | notAvail | err => simp [parseCommand, htable, hcode]
    | ok =>
      cases hdata : e.dataAlloc with
      | false => simp [parseCommand, hcode, hdata]
      | true =>
        rw [parseCommand_of_ok hdata hcode]
        simp only [htable, hcode, true_and, exists_eq_left']
        exact sgamParseAddMeterCmd_data

end Submitted

/-! ## When the meter is what was asked for -/

/-- What lets a meter pass that is not what the options ask for, where the first of these options are
in the table: one that is missing, incomplete or not well formed, one behind a table that is full (or
a burst that is cut to a shorter long), peaks that are not checked, and the remark. -/
inductive MeterSlips (e : Env) (words : List Word) (opts : List CmdOpts) : Prop
  | missing {c : Char} : c ∈ mandatory → (∀ o ∈ userOpts words, o.opt ≠ c) → MeterSlips e words opts
  | incomplete : Answer.missing ∈ answersOf words → MeterSlips e words opts
  | malformed {o : CmdOpts} : o ∈ userOpts words → ¬ WellFormed p o → MeterSlips e words opts
  | unread {c : Char} {o : CmdOpts} : opts.length = sgamMaxCmdOpts ∨ p.longBits ≤ 32 → c ≠ 'R' →
      lastOpt c (userOpts words) = some o → ¬ Says o (taken p (lastOpt c (e.entries opts))) →
      MeterSlips e words opts
  | unchecked : (e.entries opts).length = 6 → ¬ Peaks p (e.entries opts) → MeterSlips e words opts
  | remarkLost {o : CmdOpts} : (e.entries opts).length = 6 → o ∈ userOpts words → o.opt = 'R' →
      MeterSlips e words opts
  | remarkNone : (e.entries opts).length ≠ 6 → (∀ o ∈ userOpts words, o.opt ≠ 'R') → MeterSlips e words opts
  | remarkOther {o : CmdOpts} : (e.entries opts).length ≠ 6 → lastOpt 'R' (userOpts words) = some o →
      ¬ Says o (taken p (lastOpt 'R' (e.entries opts))) → MeterSlips e words opts

section Right
variable {p}

theorem exists_lastOpt {c : Char} {es : List CmdOpts} {o : CmdOpts} (ho : o ∈ es) (hc : o.opt = c) :
    ∃ o', lastOpt c es = some o' := by
  have hne : es.filter (·.opt = c) ≠ [] := List.ne_nil_of_mem (List.mem_filter.mpr ⟨ho, by simpa using hc⟩)
  exact ⟨_, List.getLast?_eq_some_getLast hne⟩

theorem entries_of_six {e : Env} {opts : List CmdOpts} (hlen : opts.length ≤ sgamMaxCmdOpts)
    (h : (e.entries opts).length = 6) : opts.length < sgamMaxCmdOpts ∧ e.entries opts = opts := by
  rcases Nat.lt_or_eq_of_le hlen with hroom | hfull
  · exact ⟨hroom, entries_of_room e hroom⟩
  · rw [entries_of_full e hfull, List.length_append, hfull, sgamMaxCmdOpts] at h
    omega

theorem length_le_of_stored {words : List Word} {opts : List CmdOpts} (h : Stored words opts) :
    opts.length ≤ sgamMaxCmdOpts := by
  have hlen := congrArg List.length h
  simp only [List.length_map, List.length_take] at hlen
  omega

/-- Where there is room for one more entry the options that are taken are those that were given. -/
theorem userOpts_of_passes {e : Env} {words : List Word} {opts : List CmdOpts} (hstored : Stored words opts)
    (hpasses : Passes p (e.entries opts)) (hroom : opts.length < sgamMaxCmdOpts) :
    userOpts words = e.entries opts := by
  have haccepts := hpasses.accepts
  rw [entries_of_room e hroom] at haccepts ⊢
  exact userOpts_of_room hstored hroom haccepts

/-- Of the first options that pass, the meter is what was asked for exactly if nothing slips. -/
theorem meterRight_of_passes {e : Env} {words : List Word} {opts : List CmdOpts} (hstored : Stored words opts)
    (hpasses : Passes p (e.entries opts)) :
    MeterRight p words (remarkMeter (e.entries opts).length (meterOf p (e.entries opts))) ↔
      ¬ MeterSlips p e words opts := by
  have hlen := length_le_of_stored hstored
  constructor
  · intro h hslips
    cases hslips with
    | missing hc hnone =>
      obtain ⟨o, ho, hopt⟩ := h.given _ hc
      exact hnone o ho hopt
    | incomplete hmissing => exact h.complete hmissing
    | malformed ho hbad => exact hbad (h.formed _ ho)
    | unread _ hR hlast hnot =>
      obtain ⟨-, rfl⟩ := lastOpt_mem hlast
      exact hnot ((says_remarkMeter fun hopt => absurd hopt hR).mp (h.carries _ _ hlast))
    | unchecked hsix hnot =>
      have hrates := h.rates
      have hbursts := h.bursts
      rw [hsix, remarkMeter_six] at hrates hbursts
      exact hnot ((peaks_iff).mpr ⟨hrates, hbursts⟩)
    | remarkLost hsix ho hopt =>
      -- the option is among the entries, and none of these gives the default
      obtain ⟨hroom, -⟩ := entries_of_six hlen hsix
      have huser := userOpts_of_passes hstored hpasses hroom
      obtain ⟨⟨c, arg⟩, hlast⟩ := exists_lastOpt ho hopt
      obtain ⟨hmem, hc⟩ := lastOpt_mem hlast
      obtain rfl : c = 'R' := hc
      have hsays := h.carries _ _ hlast
      rw [hsix, remarkMeter_six] at hsays
      obtain ⟨hdigits, hvalue⟩ := hsays
      have haccepts := hpasses.accepts _ (huser ▸ hmem)
      rw [not_accepts_maxDscp hdigits hvalue] at haccepts
      cases haccepts
    | remarkNone hcount hnone =>
      have hdefault := h.noRemark hnone
      rw [remarkMeter_of_ne hcount] at hdefault
      exact absurd hdefault (Nat.ne_of_lt (taken_remarkDscp_lt _))
    | remarkOther hcount hlast hnot =>
      obtain ⟨-, hopt⟩ := lastOpt_mem hlast
      have hsays := (says_remarkMeter fun _ => hcount).mp (h.carries _ _ hlast)
      rw [hopt] at hsays
      exact hnot hsays
  · intro hslips
    have hpeaks : Peaks p (e.entries opts) := by
      by_contra hnot
      have hsix : (e.entries opts).length = 6 := by
        by_contra hne
        exact hnot (hpasses.peaks hne)
      exact hslips (.unchecked hsix hnot)
    have hremark (info : MeterInfo) (n : Nat) : (remarkMeter n info).cir = info.cir ∧
        (remarkMeter n info).pir = info.pir ∧ (remarkMeter n info).cbs = info.cbs ∧
        (remarkMeter n info).pbs = info.pbs := by
      unfold remarkMeter
      split <;> exact ⟨rfl, rfl, rfl, rfl⟩
    obtain ⟨hcir, hpir, hcbs, hpbs⟩ := hremark (meterOf p (e.entries opts)) (e.entries opts).length
    constructor
    case given =>
      intro c hc
      by_contra hnone
      exact hslips (.missing hc fun o ho hopt => hnone ⟨o, ho, hopt⟩)
    case complete => exact fun hmissing => hslips (.incomplete hmissing)
    case formed =>
      intro o ho
      by_contra hbad
      exact hslips (.malformed ho hbad)
    case carries =>
      intro c o hlast
      obtain ⟨hmem, hopt⟩ := lastOpt_mem hlast
      by_cases hR : c = 'R'
      · subst hR
        have hcount : (e.entries opts).length ≠ 6 := fun hsix => hslips (.remarkLost hsix hmem hopt)
        apply (says_remarkMeter fun _ => hcount).mpr
        rw [hopt]
        by_contra hnot
        exact hslips (.remarkOther hcount hlast hnot)
      · apply (says_remarkMeter fun h => absurd (hopt.symm.trans h) hR).mpr
        rw [hopt]
        by_contra hnot
        by_cases hcut : opts.length = sgamMaxCmdOpts ∨ p.longBits ≤ 32
        · exact hslips (.unread hcut hR hlast hnot)
        · -- all options are in the table, and each is taken as it is written
          have hroom : opts.length < sgamMaxCmdOpts := by omega
          rw [← userOpts_of_passes hstored hpasses hroom, hlast] at hnot
          have haccepts := hpasses.accepts o (userOpts_of_passes hstored hpasses hroom ▸ hmem)
          have hformed : WellFormed p o := by
            by_contra hbad
            exact hslips (.malformed hmem hbad)
          exact hnot (says_of_wellFormed (by omega) (fun h => hR (hopt.symm.trans h)) haccepts hformed)
    case noRemark =>
      intro hnone
      by_cases hsix : (e.entries opts).length = 6
      · rw [hsix, remarkMeter_six]
        rfl
      · exact absurd (.remarkNone hsix hnone) hslips
    case rates =>
      rw [hcir, hpir]
      exact ((peaks_iff).mp hpeaks).1
    case bursts =>
      rw [hcbs, hpbs]
      exact ((peaks_iff).mp hpeaks).2

/-- What is submitted is what was asked for unless one of the slips lets it pass. -/
theorem meterRight_iff (e : Env) (words : List Word) :
    (∀ info, (sgamParseCmdLine p e (Command.addmeter.name :: words)).data = some (.meter info) →
      MeterRight p words info) ↔
    ∀ opts, e.optsAlloc = true → e.dataAlloc = true → Stored words opts → Passes p (e.entries opts) →
      ¬ MeterSlips p e words opts := by
  constructor
  · intro h opts hopts hdata hstored hpasses
    apply (meterRight_of_passes hstored hpasses).mp
    exact h _ ((addmeter_data).mpr ⟨hopts, hdata, opts, hstored, hpasses, rfl⟩)
  · intro h info hinfo
    obtain ⟨hopts, hdata, opts, hstored, hpasses, rfl⟩ := (addmeter_data).mp hinfo
    exact (meterRight_of_passes hstored hpasses).mpr (h opts hopts hdata hstored hpasses)

end Right

/-- A committed rate of two megabits with a peak of one. -/
def lowPeak : List CmdOpts :=
  [⟨'n', ['x']⟩, ⟨'m', ['t', 'r', 't', 'c', 'm', '_', 'c', 'a']⟩, ⟨'c', ['2', 'm']⟩, ⟨'p', ['1', 'm']⟩,
    ⟨'C', ['2']⟩, ⟨'P', ['1']⟩]

theorem not_meterRight_lowPeak : ¬ ∀ info,
    (sgamParseCmdLine lp64 ⟨true, true, []⟩
      (Command.addmeter.name :: lowPeak.map fun o => '-' :: o.opt :: o.optarg)).data = some (.meter info) →
    MeterRight lp64 (lowPeak.map fun o => '-' :: o.opt :: o.optarg) info := by
  intro h
  have hstored : Stored (lowPeak.map fun o => '-' :: o.opt :: o.optarg) lowPeak := by
    unfold Stored
    decide +kernel
  have hpasses : Passes lp64 lowPeak := ⟨by decide +kernel, by decide, fun hne => absurd rfl hne⟩
  have hright := h _ ((addmeter_data).mpr ⟨rfl, rfl, lowPeak, hstored, hpasses, rfl⟩)
  exact absurd hright.rates (by decide +kernel)

end Sgam
