import Mathlib.Data.List.Basic
import MxlUtils.Utility.FastWrite

/- What a fast write leaves in the flash, and what it returns. A run is over before the
   first page, at a read, at a page or after the last one; in each case its trace is
   known but for the rounds that went on, and what was sent is the file up to a page.
   The size is kept in 32 bits, a read that ends early is reported by what `errno`
   holds, and the error of the reset takes the place of the error of a page. -/
namespace Gpy2xx
open Effect Effect.Lock Padding

/-! ## The property -/

/-- Every step of the write succeeded, and the pages were those of the file. -/
structure Complete (bytes : List (BitVec 8)) (t : Trace hostSig) : Prop where
  init : ∃ phy, ⟨.inr .init, .ok phy⟩ ∈ t ∧ ⟨.inr (.fwFrwInit phy fwFwrDefTimeout), .ok ()⟩ ∈ t
  sent : sentBytes t = padTo 256 0xFF bytes
  accepted : ∀ p ∈ pages t, p.2 = .ok ()
  reset : ⟨.inr .fwFrwUninit, .ok ()⟩ ∈ t

structure Delivers (bytes : List (BitVec 8)) (t : Trace hostSig) (ret : Int) : Prop where
  success : ret = 0 ↔ Complete bytes t
  sent : sentBytes t <+: padTo 256 0xFF bytes
  failure : ∀ u buf timeout e v, t = u ++ ⟨.inr (.fwFwrPage buf timeout), .error e⟩ :: v →
    pages v = [] ∧ (∃ c, ⟨.inr .fwFrwUninit, c⟩ ∈ v) ∧ ret = e.code

/-- The size of the file as it is kept. -/
def keptSize (bytes : List (BitVec 8)) : Nat := bytes.length % 2 ^ 32

/-- A read that ends early leaves something in `errno`; the file is smaller than 4 GiB, or the run
ends early and before the padding after the kept size differs from the file; a reset that fails
after a page does so with the same error. -/
structure Reported (bytes : List (BitVec 8)) (t : Trace hostSig) : Prop where
  errnoSet : ⟨.inl .errno, (0 : Int)⟩ ∉ t
  fits : bytes.length < 2 ^ 32 ∨
    (∃ e ∈ t, ends e) ∧ (256 * (pages t).length ≤ keptSize bytes ∨ Blank 256 0xFF bytes (keptSize bytes))
  sameError : ∀ buf timeout e e', ⟨.inr (.fwFwrPage buf timeout), .error e⟩ ∈ t →
    ⟨.inr .fwFrwUninit, .error e'⟩ ∈ t → e' = e

/-! ## How a run ends -/

/-- The calls before the first page. -/
def opened (size : Nat) (phy : Gpy211Device) : Trace hostSig :=
  [⟨.inl .fopen, .ok ()⟩, ⟨.inl .ftell, size⟩, ⟨.inr .init, .ok phy⟩,
    ⟨.inr (.fwFrwInit phy fwFwrDefTimeout), .ok ()⟩]

/-- A call that is none of those that follow a read or a page. -/
def early : Event hostSig → Bool
  | ⟨.inl .errno, _⟩ => false
  | ⟨.inr (.fwFwrPage _ _), _⟩ => false
  | ⟨.inr .fwFrwUninit, _⟩ => false
  | _ => true

/-- From `RESET_PHY` on. -/
def resetEvents (c : Except Errno Unit) : Trace hostSig := [⟨.inr .fwFrwUninit, c⟩, ⟨.inl .fclose, ()⟩]

theorem mem_resetEvents (c : Except Errno Unit) : ⟨.inr .fwFrwUninit, c⟩ ∈ resetEvents c :=
  List.mem_cons_self

@[simp] theorem pages_opened (size : Nat) (phy : Gpy211Device) : pages (opened size phy) = [] := rfl

@[simp] theorem pages_resetEvents (c : Except Errno Unit) : pages (resetEvents c) = [] := rfl

/-- The code of an error, or `ret2`. -/
def resetCode (ret2 : Int) : Except Errno Unit → Int
  | .error e => e.code
  | .ok _ => ret2

inductive RunEnd (bytes : List (BitVec 8)) : Trace hostSig → Int → Prop where
  | early {t : Trace hostSig} (e : Errno) (h : ∀ e ∈ t, early e) (hends : ∃ e ∈ t, ends e) :
      RunEnd bytes t e.code
  | read {t : Trace hostSig} (phy : Gpy211Device) (n : Nat) (got : List (BitVec 8)) (errno : Int)
      (h : ∀ e ∈ t, goesOn e) (hgot : got.length ≠ n) :
      RunEnd bytes (opened bytes.length phy ++ (t ++
        [⟨.inl (.fread n), got⟩, ⟨.inl .fclose, ()⟩, ⟨.inl .errno, errno⟩])) (-errno)
  | page {t : Trace hostSig} (phy : Gpy211Device) (buf : Bytes 256) (e : Errno) (c : Except Errno Unit)
      (h : ∀ e ∈ t, goesOn e) :
      RunEnd bytes (opened bytes.length phy ++ (t ++ ⟨.inr (.fwFwrPage buf fwFwrDefTimeout), .error e⟩ ::
        resetEvents c)) (resetCode e.code c)
  | reset {t : Trace hostSig} (phy : Gpy211Device) (c : Except Errno Unit) (h : ∀ e ∈ t, goesOn e)
      (hall : sentBytes t = padTo 256 0xFF (bytes.take (keptSize bytes))) :
      RunEnd bytes (opened bytes.length phy ++ (t ++ resetEvents c))
        (resetCode 0 c)

theorem runs_resetPhy {ret2 ret : Int} {t : Trace hostSig} (h : (resetPhy ret2).Runs t ret) :
    ∃ c, t = resetEvents c ∧ ret = resetCode ret2 c := by
  obtain ⟨c, t, rfl, h⟩ := h
  refine ⟨c, ?_⟩
  cases c with
  | error e =>
    obtain ⟨_, _, rfl, rfl, rfl⟩ := h
    exact ⟨rfl, rfl⟩
  | ok _ =>
    obtain ⟨_, _, rfl, rfl, rfl⟩ := h
    exact ⟨rfl, rfl⟩

theorem runEnd_fwFastWrite {bytes : List (BitVec 8)} {t : Trace hostSig} {ret : Int} {off : Nat}
    (hrun : fwFastWrite.Runs t ret) (hpath : (fileDev bytes).onLeft.Path 0 t off) :
    RunEnd bytes t ret ∧
    sentBytes t = (padTo 256 0xFF (bytes.take (keptSize bytes))).take (256 * (pages t).length) := by
  obtain ⟨c, t, rfl, hrun⟩ := hrun
  cases c with
  | error e =>
    obtain ⟨rfl, rfl⟩ := hrun
    exact ⟨.early e (by simp [early]) ⟨_, List.mem_cons_self, rfl⟩, rfl⟩
  | ok _ =>
    obtain ⟨size, t, rfl, c, t, rfl, hrun⟩ := hrun
    obtain ⟨_, rfl, _, ⟨rfl, rfl⟩, _, rfl, hpath⟩ := hpath
    cases c with
    | error e =>
      obtain ⟨_, _, rfl, rfl, rfl⟩ := hrun
      exact ⟨.early e (by simp [early]) ⟨⟨.inr .init, .error e⟩, by simp, rfl⟩, rfl⟩
    | ok phy =>
      obtain ⟨c, t, rfl, hrun⟩ := hrun
      obtain ⟨_, rfl, hpath⟩ := hpath
      cases c with
      | error e =>
        obtain ⟨_, _, rfl, rfl, rfl⟩ := hrun
        exact ⟨.early e (by simp [early]) ⟨⟨.inr (.fwFrwInit phy fwFwrDefTimeout), .error e⟩, by simp, rfl⟩,
          rfl⟩
      | ok _ =>
        change Prog.Runs (writePages (BitVec.ofNat 32 bytes.length).toNat >>= _) t ret at hrun
        obtain ⟨t₁, x, t₂, rfl, hpages, hrest⟩ := (Prog.runs_bind).mp hrun
        obtain ⟨m, hpath, -⟩ := (Dev.path_append).mp hpath
        obtain ⟨hend, hcut, hall⟩ := pagesEnd_writePages hpages hpath
        rw [List.drop_zero, BitVec.toNat_ofNat, ← keptSize] at hcut hall
        -- what follows the loop sends nothing
        have hquiet (h : pages t₂ = []) :
            sentBytes (opened bytes.length phy ++ (t₁ ++ t₂)) =
              (padTo 256 0xFF (bytes.take (keptSize bytes))).take
                (256 * (pages (opened bytes.length phy ++ (t₁ ++ t₂))).length) := by
          have hsent : sentBytes t₂ = [] := by rw [sentBytes, h, List.flatMap_nil]
          have hopened : pages (opened bytes.length phy) = [] := rfl
          rw [sentBytes_append, sentBytes_append, pages_append, pages_append, hsent, h, hopened, List.append_nil,
            List.append_nil, List.nil_append, ← hcut]
          rfl
        cases hend with
        | done h =>
          obtain ⟨c, rfl, rfl⟩ := runs_resetPhy hrest
          exact ⟨.reset phy c h (hall h), hquiet rfl⟩
        | @page t buf e h =>
          obtain ⟨c, rfl, rfl⟩ := runs_resetPhy hrest
          refine ⟨?_, hquiet rfl⟩
          rw [List.append_assoc]
          exact .page phy buf e c h
        | @read t n got errno h hgot =>
          obtain ⟨rfl, rfl⟩ := hrest
          refine ⟨?_, hquiet rfl⟩
          rw [List.append_nil]
          exact .read phy n got errno h hgot

/-! ## The property in each case -/

variable {bytes : List (BitVec 8)} {t : Trace hostSig} {ret : Int}

/-- The pages of the file up to its kept size are a beginning of the pages of the file, unless the
padding shows. -/
theorem sent_prefix_iff
    (hcut : sentBytes t = (padTo 256 0xFF (bytes.take (keptSize bytes))).take (256 * (pages t).length)) :
    sentBytes t <+: padTo 256 0xFF bytes ↔ bytes.length < 2 ^ 32 ∨
      256 * (pages t).length ≤ keptSize bytes ∨ Blank 256 0xFF bytes (keptSize bytes) := by
  by_cases hsmall : bytes.length < 2 ^ 32
  · have hkept : bytes.take (keptSize bytes) = bytes := by
      rw [keptSize, Nat.mod_eq_of_lt hsmall, List.take_length]
    rw [hcut, hkept]
    exact ⟨fun _ => .inl hsmall, fun _ => List.take_prefix _ _⟩
  · have hlong : keptSize bytes + 256 ≤ bytes.length := by
      rw [keptSize]
      omega
    have hlen := congrArg List.length hcut
    rw [length_sentBytes, List.length_take] at hlen
    rw [hcut, take_padTo_take_prefix_iff (by omega) hlong (by omega)]
    exact (or_iff_right hsmall).symm

/-- The pages of a file of 4 GiB or more are never all sent. -/
theorem padTo_kept_eq_iff :
    padTo 256 0xFF (bytes.take (keptSize bytes)) = padTo 256 0xFF bytes ↔ bytes.length < 2 ^ 32 := by
  constructor
  · intro h
    have hlen := congrArg List.length h
    rw [length_padTo, length_padTo, List.length_take] at hlen
    have hgap := gap_lt (k := 256) (n := min (keptSize bytes) bytes.length) (by omega)
    rw [keptSize] at hlen hgap
    omega
  · intro h
    rw [keptSize, Nat.mod_eq_of_lt h, List.take_length]

/-- A run that ends early: what is returned and the failure of a page decide. -/
theorem delivers_iff_of_ends
    (hcut : sentBytes t = (padTo 256 0xFF (bytes.take (keptSize bytes))).take (256 * (pages t).length))
    (hends : ∃ e ∈ t, ends e) (hincomplete : ¬Complete bytes t)
    (hret : ret = 0 ↔ ⟨.inl .errno, (0 : Int)⟩ ∈ t)
    (hfailure : (∀ u buf timeout e v, t = u ++ ⟨.inr (.fwFwrPage buf timeout), .error e⟩ :: v →
        pages v = [] ∧ (∃ c, ⟨.inr .fwFrwUninit, c⟩ ∈ v) ∧ ret = e.code) ↔
      ∀ buf timeout e e', ⟨.inr (.fwFwrPage buf timeout), .error e⟩ ∈ t →
        ⟨.inr .fwFrwUninit, .error e'⟩ ∈ t → e' = e) :
    Delivers bytes t ret ↔ Reported bytes t := by
  have hsent := sent_prefix_iff hcut
  constructor
  · intro h
    exact ⟨fun hmem => hincomplete (h.success.mp (hret.mpr hmem)),
      (hsent.mp h.sent).imp_right fun hcase => ⟨hends, hcase⟩, hfailure.mp h.failure⟩
  · intro h
    exact ⟨⟨fun hzero => (h.errnoSet (hret.mp hzero)).elim, fun hc => (hincomplete hc).elim⟩,
      hsent.mpr (h.fits.imp_right (·.2)), hfailure.mpr h.sameError⟩

/-- What is not a round of the loop is before it or after it. -/
theorem mem_opened_append {l : Trace hostSig} {size : Nat} {phy : Gpy211Device} {e : Event hostSig}
    (h : ∀ e ∈ t, goesOn e) (he : goesOn e = false) (hearly : early e = false) :
    e ∈ opened size phy ++ (t ++ l) ↔ e ∈ l := by
  have hloop : e ∉ t := fun hmem => by simpa [he] using h e hmem
  have hopened : e ∉ opened size phy := fun hmem => by
    have hall : ∀ e ∈ opened size phy, early e := by simp [opened, early]
    simpa [hearly] using hall e hmem
  simp [hopened, hloop]

theorem mem_of_mem_end {l : Trace hostSig} {size : Nat} {phy : Gpy211Device} {e : Event hostSig} (h : e ∈ l) :
    e ∈ opened size phy ++ (t ++ l) := List.mem_append_right _ (List.mem_append_right _ h)

/-- Where no page fails nothing is said about a failure. -/
theorem failure_iff_of_not_mem (h : ∀ buf timeout e, ⟨.inr (.fwFwrPage buf timeout), .error e⟩ ∉ t) :
    (∀ u buf timeout e v, t = u ++ ⟨.inr (.fwFwrPage buf timeout), .error e⟩ :: v →
      pages v = [] ∧ (∃ c, ⟨.inr .fwFrwUninit, c⟩ ∈ v) ∧ ret = e.code) ↔
    ∀ buf timeout e e', ⟨.inr (.fwFwrPage buf timeout), .error e⟩ ∈ t →
      ⟨.inr .fwFrwUninit, .error e'⟩ ∈ t → e' = e := by
  constructor
  · intro _ buf timeout e e' hmem
    exact (h buf timeout e hmem).elim
  · intro _ u buf timeout e v heq
    exact (h buf timeout e (by simp [heq])).elim

theorem Errno.ext_code {e e' : Errno} (h : e.code = e'.code) : e = e' := by
  cases e
  cases e'
  cases h
  rfl

theorem resetCode_eq_iff {e : Errno} {c : Except Errno Unit} :
    resetCode e.code c = e.code ↔ ∀ e', c = .error e' → e' = e := by
  cases c with
  | error e₀ => exact ⟨fun h e' he' => (Except.error.inj he') ▸ Errno.ext_code h, fun h => by rw [h e₀ rfl]; rfl⟩
  | ok _ => simp [resetCode]

theorem resetCode_ne_zero {e : Errno} {c : Except Errno Unit} : resetCode e.code c ≠ 0 := by
  have hneg := e.neg
  cases c with
  | error e' =>
    have hneg' := e'.neg
    rw [resetCode]
    omega
  | ok _ =>
    rw [resetCode]
    omega

/-- After a page that failed. -/
theorem failure_page_iff {size : Nat} {phy : Gpy211Device} {buf : Bytes 256} {e : Errno}
    {c : Except Errno Unit} (h : ∀ e ∈ t, goesOn e) :
    (∀ u buf' timeout e' v,
      opened size phy ++ (t ++ ⟨.inr (.fwFwrPage buf fwFwrDefTimeout), .error e⟩ ::
        resetEvents c) =
        u ++ ⟨.inr (.fwFwrPage buf' timeout), .error e'⟩ :: v →
      pages v = [] ∧ (∃ c, ⟨.inr .fwFrwUninit, c⟩ ∈ v) ∧ resetCode e.code c = e'.code) ↔
    ∀ buf' timeout e₁ e₂,
      ⟨.inr (.fwFwrPage buf' timeout), .error e₁⟩ ∈
        opened size phy ++ (t ++ ⟨.inr (.fwFwrPage buf fwFwrDefTimeout), .error e⟩ ::
          resetEvents c) →
      ⟨.inr .fwFrwUninit, .error e₂⟩ ∈
        opened size phy ++ (t ++ ⟨.inr (.fwFwrPage buf fwFwrDefTimeout), .error e⟩ ::
          resetEvents c) → e₂ = e₁ := by
  have hnot (buf' : Bytes 256) (timeout : BitVec 32) (e' : Errno) :
      ⟨.inr (.fwFwrPage buf' timeout), .error e'⟩ ∉ opened size phy ++ t := by
    intro hmem
    rcases List.mem_append.mp hmem with hmem | hmem
    · exact not_mem_of_op (by simp [opened]) hmem
    · simpa [goesOn] using h _ hmem
  constructor
  · intro hall buf' timeout e₁ e₂ hpage hreset
    have hcode := (hall (opened size phy ++ t) buf fwFwrDefTimeout e _ (by rw [List.append_assoc])).2.2
    rw [mem_opened_append h rfl rfl] at hpage hreset
    obtain _ | ⟨_, _ | ⟨_, _ | ⟨_, hnil⟩⟩⟩ := hpage
    · obtain _ | ⟨_, _ | ⟨_, _ | ⟨_, hnil⟩⟩⟩ := hreset
      · exact (resetCode_eq_iff).mp hcode e₂ rfl
      · cases hnil
    · cases hnil
  · intro hall u buf' timeout e' v heq
    rw [← List.append_assoc, List.append_cons_inj_of_notMem (hnot _ _ _) (not_mem_of_op (by simp [resetEvents]))] at heq
    obtain ⟨rfl, hevent, rfl⟩ := heq
    cases hevent
    refine ⟨rfl, ⟨c, mem_resetEvents c⟩, (resetCode_eq_iff).mpr ?_⟩
    intro e' hc
    apply hall buf fwFwrDefTimeout e e'
    · exact mem_of_mem_end List.mem_cons_self
    · rw [hc]
      exact mem_of_mem_end (List.mem_cons_of_mem _ (mem_resetEvents _))

theorem accepted_of_goesOn (h : ∀ e ∈ t, goesOn e) : ∀ p ∈ pages t, p.2 = .ok () := by
  intro p hp
  obtain ⟨e, he, hcall⟩ := List.mem_filterMap.mp hp
  obtain ⟨o, r⟩ := e
  rcases o with o | (_ | ⟨phy, timeout⟩ | ⟨buf, timeout⟩ | _)
  case inr.fwFwrPage =>
    cases hcall
    cases r with
    | error e => simpa [goesOn] using h _ he
    | ok _ => rfl
  all_goals simp [pageCall] at hcall

/-- After the last page of what was kept of the size. -/
theorem delivers_iff_reported_reset {phy : Gpy211Device} (h : ∀ e ∈ t, goesOn e)
    (hall : sentBytes t = padTo 256 0xFF (bytes.take (keptSize bytes))) :
    Delivers bytes (opened bytes.length phy ++
        (t ++ resetEvents (.ok ()))) 0 ↔
      Reported bytes (opened bytes.length phy ++
        (t ++ resetEvents (.ok ()))) := by
  have hsent : sentBytes (opened bytes.length phy ++
      (t ++ resetEvents (.ok ()))) =
      padTo 256 0xFF (bytes.take (keptSize bytes)) := by
    rw [sentBytes_append, sentBytes_append, hall]
    exact List.append_nil _
  have haccepted : ∀ p ∈ pages (opened bytes.length phy ++
      (t ++ resetEvents (.ok ()))), p.2 = .ok () := by
    intro p hp
    rw [pages_append, pages_append, pages_opened, pages_resetEvents, List.nil_append, List.append_nil] at hp
    exact accepted_of_goesOn h p hp
  have hgoes : ¬∃ e ∈ opened bytes.length phy ++
      (t ++ resetEvents (.ok ())), ends e := by
    rintro ⟨e, he, hends⟩
    have hopened : ∀ e ∈ opened bytes.length phy, ends e = false := by simp [opened, ends]
    have hreset : ∀ e ∈ resetEvents (.ok ()), ends e = false := by simp [resetEvents, ends]
    rcases List.mem_append.mp he with he | he
    · simp [hopened e he] at hends
    · rcases List.mem_append.mp he with he | he
      · exact ends_of_goesOn (h e he) hends
      · simp [hreset e he] at hends
  have herrno : ⟨.inl .errno, (0 : Int)⟩ ∉ opened bytes.length phy ++
      (t ++ resetEvents (.ok ())) := by
    rw [mem_opened_append h rfl rfl]
    exact not_mem_of_op (by simp [resetEvents])
  have hfailure (buf : Bytes 256) (timeout : BitVec 32) (e : Errno) :
      ⟨.inr (.fwFwrPage buf timeout), .error e⟩ ∉ opened bytes.length phy ++
        (t ++ resetEvents (.ok ())) := by
    rw [mem_opened_append h rfl rfl]
    exact not_mem_of_op (by simp [resetEvents])
  constructor
  · intro hd
    have hsmall : bytes.length < 2 ^ 32 := by
      rw [← padTo_kept_eq_iff, ← hsent]
      exact (hd.success.mp rfl).sent
    exact ⟨herrno, .inl hsmall, (failure_iff_of_not_mem hfailure).mp hd.failure⟩
  · intro hr
    have hsmall : bytes.length < 2 ^ 32 := hr.fits.resolve_right fun hcase => hgoes hcase.1
    rw [← padTo_kept_eq_iff, ← hsent] at hsmall
    have hcomplete : Complete bytes (opened bytes.length phy ++
        (t ++ resetEvents (.ok ()))) := {
      init := ⟨phy, by simp [opened], by simp [opened]⟩
      sent := hsmall
      accepted := haccepted
      reset := mem_of_mem_end (mem_resetEvents _) }
    exact ⟨iff_of_true rfl hcomplete, hsmall ▸ List.prefix_refl _,
      (failure_iff_of_not_mem hfailure).mpr hr.sameError⟩

theorem delivers_iff_reported (hend : RunEnd bytes t ret)
    (hcut : sentBytes t = (padTo 256 0xFF (bytes.take (keptSize bytes))).take (256 * (pages t).length)) :
    Delivers bytes t ret ↔ Reported bytes t := by
  cases hend with
  | early e h hends =>
    have hnot {e' : Event hostSig} (he' : early e' = false) : e' ∉ t := fun hmem => by
      simpa [he'] using h e' hmem
    apply delivers_iff_of_ends hcut hends
    · exact fun hc => hnot rfl hc.reset
    · exact ⟨fun hzero => absurd hzero e.neg.ne, fun hmem => (hnot rfl hmem).elim⟩
    · exact failure_iff_of_not_mem fun _ _ _ => hnot rfl
  | @read t phy n got errno h hgot =>
    apply delivers_iff_of_ends hcut
    · exact ⟨⟨.inl (.fread n), got⟩, by simp, by simpa [ends] using hgot⟩
    · intro hc
      exact not_mem_of_op (by simp) ((mem_opened_append h rfl rfl).mp hc.reset)
    · rw [mem_opened_append h rfl rfl, Int.neg_eq_zero]
      constructor
      · rintro rfl
        simp
      · rintro (_ | ⟨_, _ | ⟨_, _ | ⟨_, h⟩⟩⟩)
        · rfl
        · cases h
    · apply failure_iff_of_not_mem
      intro buf timeout e hmem
      exact not_mem_of_op (by simp) ((mem_opened_append h rfl rfl).mp hmem)
  | @page t phy buf e c h =>
    apply delivers_iff_of_ends hcut
    · exact ⟨⟨.inr (.fwFwrPage buf fwFwrDefTimeout), .error e⟩, by simp, rfl⟩
    · intro hc
      have := hc.accepted (buf, .error e) (by simp [pages, pageCall])
      simp at this
    · rw [mem_opened_append h rfl rfl]
      exact ⟨fun hzero => absurd hzero resetCode_ne_zero, fun hmem => (not_mem_of_op (by simp [resetEvents]) hmem).elim⟩
    · exact failure_page_iff h
  | @reset t phy c h hall =>
    cases c with
    | ok _ => exact delivers_iff_reported_reset h hall
    | error e =>
      apply delivers_iff_of_ends hcut
      · exact ⟨⟨.inr .fwFrwUninit, .error e⟩, mem_of_mem_end (mem_resetEvents _), rfl⟩
      · intro hc
        obtain _ | ⟨_, _ | ⟨_, hnil⟩⟩ := (mem_opened_append h rfl rfl).mp hc.reset
        cases hnil
      · rw [mem_opened_append h rfl rfl]
        exact ⟨fun hzero => absurd hzero e.neg.ne, fun hmem => (not_mem_of_op (by simp [resetEvents]) hmem).elim⟩
      · apply failure_iff_of_not_mem
        intro buf timeout e' hmem
        exact not_mem_of_op (by simp [resetEvents]) ((mem_opened_append h rfl rfl).mp hmem)

/-! ## On the registers -/

/-- The fast write down to the registers, with the calls it makes. -/
def fastWriteOn (p : PhyData) : Prog (fileSig.sum regSig.locking) (Trace hostSig × Int) :=
  fwFastWrite.traced.interp (.implement (apiCall p))

/-- The file is delivered, and the return value says so, in those runs in which no problem goes
unreported: for every file, however the reads are cut short, and for all answers of the PHY. -/
theorem fastWrite_delivers_iff {p : PhyData} {bytes : List (BitVec 8)} {calls : Trace hostSig} {ret : Int}
    {t : Trace (fileSig.sum regSig.locking)} {off : Nat} (hrun : (fastWriteOn p).Runs t (calls, ret))
    (hfile : (fileDev bytes).onLeft.Path 0 t off) :
    Delivers bytes calls ret ↔ Reported bytes calls := by
  obtain ⟨t', htraced, hpath⟩ := Prog.runs_implement hrun hfile
  obtain ⟨_, hhost, heq⟩ := (Prog.runs_traced).mp htraced
  cases heq
  obtain ⟨hend, hcut⟩ := runEnd_fwFastWrite hhost hpath
  exact delivers_iff_reported hend hcut

/-! A file of one byte. -/

/-- A PHY with the right identity that is done with every page at once. -/
def readyRegs : Regs := { zeroRegs true with
  phy := fun reg => if reg = stdPhyid1 then 0x67C9 else if reg = stdPhyid2 then 0xDC00 else 0
  mmd := fun devad reg => if devad = .vend1 ∧ reg = mboxDataHigh then 0x8000 else 0 }

/-- A structure of zeros. -/
def blankPhy : PhyData where
  nrOfSas := 0
  family := .p31g
  phyAddr := 0
  macsecSupported := false
  ptpClock := 0
  gmacfBaseAddr := 0
  gmaclBaseAddr := 0
  pmBaseAddr := 0
  synceSupported := false
  modelNo := 0
  privData := false
  link := freshLink

theorem exists_init_blankPhy : ∃ phy u, (apiCall blankPhy .init).Runs u (.ok phy) ∧
    frwInitAccepts phy fwFwrDefTimeout := by
  have hrun : ∃ phy, ((apiCall blankPhy .init).run lockedMem readyRegs).1 = .ok phy ∧
      frwInitAccepts phy fwFwrDefTimeout := by
    refine ⟨_, rfl, ?_⟩
    decide
  obtain ⟨phy, hphy, haccepts⟩ := hrun
  obtain ⟨u, hu, -⟩ := (Prog.run_eq_iff).mp (Prod.ext hphy rfl)
  exact ⟨phy, u, hu, haccepts⟩

theorem exists_frwInit_ok {phy : Gpy211Device} (h : frwInitAccepts phy fwFwrDefTimeout) :
    ∃ u, (apiCall blankPhy (.fwFrwInit phy fwFwrDefTimeout)).Runs u (.ok ()) := by
  have hrun : ((apiCall blankPhy (.fwFrwInit phy fwFwrDefTimeout)).run lockedMem readyRegs).1 = .ok () := by
    rw [apiCall, gpy2xxFwFrwInit, h]
    rfl
  obtain ⟨u, hu, -⟩ := (Prog.run_eq_iff).mp (Prod.ext hrun rfl)
  exact ⟨u, hu⟩

set_option maxRecDepth 8000 in
theorem exists_fwrPage_ok : ∃ u, (apiCall blankPhy (.fwFwrPage (pageOf [0xAA]) fwFwrDefTimeout)).Runs u (.ok ()) := by
  have hrun : ((apiCall blankPhy (.fwFwrPage (pageOf [0xAA]) fwFwrDefTimeout)).run lockedMem readyRegs).1 =
      .ok () := rfl
  obtain ⟨u, hu, -⟩ := (Prog.run_eq_iff).mp (Prod.ext hrun rfl)
  exact ⟨u, hu⟩

theorem exists_frwUninit_ok : ∃ u, (apiCall blankPhy .fwFrwUninit).Runs u (.ok ()) := by
  have hrun : ((apiCall blankPhy .fwFrwUninit).run lockedMem readyRegs).1 = .ok () := rfl
  obtain ⟨u, hu, -⟩ := (Prog.run_eq_iff).mp (Prod.ext hrun rfl)
  exact ⟨u, hu⟩

theorem runs_opened {size : Nat} (phy : Gpy211Device) {t₁ t₂ : Trace hostSig} {x : Except Int Int}
    (h₁ : (writePages (BitVec.ofNat 32 size).toNat).Runs t₁ x)
    (h₂ : Prog.Runs (match x with | .error ret => pure ret | .ok ret2 => resetPhy ret2) t₂ ret) :
    fwFastWrite.Runs (opened size phy ++ (t₁ ++ t₂)) ret := by
  have hrest : Prog.Runs (writePages (BitVec.ofNat 32 size).toNat >>= fun x =>
      match x with | .error ret => pure ret | .ok ret2 => resetPhy ret2) (t₁ ++ t₂) ret :=
    (Prog.runs_bind).mpr ⟨t₁, x, t₂, rfl, h₁, h₂⟩
  exact ⟨.ok (), _, rfl, size, _, rfl, .ok phy, _, rfl, .ok (), _, rfl, hrest⟩

/-- The one page of the file, accepted. -/
def pageEvents : Trace hostSig :=
  [⟨.inl (.fread 1), [0xAA]⟩, ⟨.inr (.fwFwrPage (pageOf [0xAA]) fwFwrDefTimeout), .ok ()⟩]

theorem runs_pageEvents : (writePages 1).Runs pageEvents (.ok 0) := by
  rw [writePages]
  have hlast : (writePages 0).Runs [] (.ok 0) := by
    rw [writePages]
    exact ⟨rfl, rfl⟩
  exact ⟨[0xAA], _, rfl, .ok (), _, rfl, hlast⟩

theorem goesOn_pageEvents : ∀ e ∈ pageEvents, goesOn e := by simp [pageEvents, goesOn]

/-- The PHY can answer like this before the first page. -/
theorem exists_opened : ∃ phy, ∀ l : Trace hostSig,
    (∀ o r, ⟨.inr o, r⟩ ∈ l → ∃ u, (apiCall blankPhy o).Runs u r) →
    ∀ o r, ⟨.inr o, r⟩ ∈ opened 1 phy ++ l → ∃ u, (apiCall blankPhy o).Runs u r := by
  obtain ⟨phy, u, hinit, haccepts⟩ := exists_init_blankPhy
  refine ⟨phy, ?_⟩
  intro l hl o r hmem
  rcases List.mem_append.mp hmem with hmem | hmem
  · obtain _ | ⟨_, _ | ⟨_, _ | ⟨_, _ | ⟨_, hnil⟩⟩⟩⟩ := hmem
    · exact ⟨u, hinit⟩
    · exact exists_frwInit_ok haccepts
    · cases hnil
  · exact hl o r hmem

theorem delivers_oneByte : ∃ phy t,
    (fastWriteOn blankPhy).Runs t (opened 1 phy ++ (pageEvents ++ resetEvents (.ok ())), 0) ∧
    Delivers [0xAA] (opened 1 phy ++ (pageEvents ++ resetEvents (.ok ()))) 0 := by
  obtain ⟨phy, hopened⟩ := exists_opened
  have hhost : fwFastWrite.Runs (opened 1 phy ++ (pageEvents ++ resetEvents (.ok ()))) 0 :=
    runs_opened phy runs_pageEvents ⟨.ok (), _, rfl, (), _, rfl, rfl, rfl⟩
  have hpath : (fileDev [0xAA]).onLeft.Path 0 (opened 1 phy ++ (pageEvents ++ resetEvents (.ok ()))) 1 :=
    ⟨0, rfl, 0, ⟨rfl, rfl⟩, 0, rfl, 0, rfl, 1, ⟨List.prefix_refl _, rfl⟩, 1, rfl, 1, rfl, 1, rfl, rfl⟩
  have hreal := hopened (pageEvents ++ resetEvents (.ok ())) fun o r hmem => by
    obtain _ | ⟨_, _ | ⟨_, _ | ⟨_, _ | ⟨_, hnil⟩⟩⟩⟩ := hmem
    · exact exists_fwrPage_ok
    · exact exists_frwUninit_ok
    · cases hnil
  obtain ⟨t, hrun, hfile⟩ := Prog.exists_runs_implement (Prog.runs_traced.mpr ⟨0, hhost, rfl⟩) hpath hreal
  refine ⟨phy, t, hrun, (fastWrite_delivers_iff hrun hfile).mpr ⟨?_, .inl (by simp), ?_⟩⟩
  · rw [mem_opened_append goesOn_pageEvents rfl rfl]
    exact not_mem_of_op (by simp [resetEvents])
  · intro buf timeout e e' hmem
    rw [mem_opened_append goesOn_pageEvents rfl rfl] at hmem
    exact (not_mem_of_op (by simp [resetEvents]) hmem).elim

/-- The read of the file ends at once and leaves nothing in `errno`. -/
def emptyRead : Trace hostSig := [⟨.inl (.fread 1), []⟩, ⟨.inl .fclose, ()⟩, ⟨.inl .errno, (0 : Int)⟩]

/-- No page is sent, the PHY stays in the download mode, and zero is returned. -/
theorem not_delivers_emptyRead : ∃ phy t off,
    (fastWriteOn blankPhy).Runs t (opened 1 phy ++ emptyRead, 0) ∧ (fileDev [0xAA]).onLeft.Path 0 t off ∧
    pages (opened 1 phy ++ emptyRead) = [] ∧ ¬Delivers [0xAA] (opened 1 phy ++ emptyRead) 0 := by
  obtain ⟨phy, hopened⟩ := exists_opened
  have hpages : (writePages 1).Runs emptyRead (.error 0) := by
    rw [writePages]
    exact ⟨[], _, rfl, (), _, rfl, (0 : Int), _, rfl, rfl, rfl⟩
  have hhost : fwFastWrite.Runs (opened 1 phy ++ (emptyRead ++ [])) 0 := runs_opened phy hpages ⟨rfl, rfl⟩
  have hpath : (fileDev [0xAA]).onLeft.Path 0 (opened 1 phy ++ emptyRead) 0 :=
    ⟨0, rfl, 0, ⟨rfl, rfl⟩, 0, rfl, 0, rfl, 0, ⟨List.nil_prefix, rfl⟩, 0, rfl, 0, rfl, rfl⟩
  have hreal := hopened emptyRead fun o r hmem => by
    obtain _ | ⟨_, _ | ⟨_, _ | ⟨_, hnil⟩⟩⟩ := hmem
    cases hnil
  obtain ⟨t, hrun, hfile⟩ := Prog.exists_runs_implement (Prog.runs_traced.mpr ⟨0, hhost, rfl⟩) hpath hreal
  refine ⟨phy, t, 0, hrun, hfile, rfl, ?_⟩
  intro h
  exact not_mem_of_op (by simp [opened, emptyRead]) (h.success.mp rfl).reset

end Gpy2xx
