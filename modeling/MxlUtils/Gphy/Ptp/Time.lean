import MxlUtils.Gphy.Ptp.AuxFifo
import MxlUtils.Gphy.Ptp.Control
import Mathlib.Data.List.Forall2

/- Reading the time. `ptp_gettime` puts the time together from four reads of 16
   bits, low halves before high ones, seconds before nanoseconds, and the clock goes
   on between them. `Untorn` says, of the clock's values at the four reads, when
   what is put together lies between the first and the last. Where it does at every
   call, the times never go back. -/
namespace Gpy2xx
open Effect Effect.Fallible Effect.Lock

/-! ## The call -/

/-- `GMACF_MAC_SYSTEM_TIME_*` -/
def systemTimeSecondsL : Nat := 0x1610
def systemTimeSecondsH : Nat := 0x1614
def systemTimeNanosecondsL : Nat := 0x1618
def systemTimeNanosecondsH : Nat := 0x161C

def gpy2xxPtpGettime (phy : Gpy211Device) : Call Timespec64 :=
  locked do
    let secL ← smdioReadAt (phy.gmacfBaseAddr + systemTimeSecondsL)
    let secH ← smdioReadAt (phy.gmacfBaseAddr + systemTimeSecondsH)
    let nsecL ← smdioReadAt (phy.gmacfBaseAddr + systemTimeNanosecondsL)
    let nsecH ← smdioReadAt (phy.gmacfBaseAddr + systemTimeNanosecondsH)
    pure {
      tvSec := secL.setWidth 64 ||| secH.setWidth 64 <<< 16
      tvNsec := nsecL.setWidth 64 ||| (nsecH &&& 0x7FFF).setWidth 64 <<< 16 }

/-! ## The clock -/

/-- The parts of a time in nanoseconds. -/
def secOf (now : Nat) : Nat := now / 10 ^ 9
def nsecOf (now : Nat) : Nat := now % 10 ^ 9

/-- The halves of a register, and what two halves make. -/
def highHalf (x : Nat) : Nat := x / 2 ^ 16
def lowHalf (x : Nat) : Nat := x % 2 ^ 16
def joinHalves (high low : Nat) : Nat := high * 2 ^ 16 + low

/-- What a read of the time shows at the time `now`. -/
def ShowsTime (phy : Gpy211Device) (e : Event regSig) (now : Nat) : Prop :=
  match e with
  | ⟨.smdioRead reg, .ok v⟩ =>
    (reg = smdioReg (phy.gmacfBaseAddr + systemTimeSecondsL) → v.toNat = lowHalf (secOf now)) ∧
    (reg = smdioReg (phy.gmacfBaseAddr + systemTimeSecondsH) → v.toNat = highHalf (secOf now)) ∧
    (reg = smdioReg (phy.gmacfBaseAddr + systemTimeNanosecondsL) → v.toNat = lowHalf (nsecOf now)) ∧
    (reg = smdioReg (phy.gmacfBaseAddr + systemTimeNanosecondsH) → v.toNat = highHalf (nsecOf now))
  | _ => True

/-- A call, with the time at each of its accesses. -/
structure GettimeCall where
  trace : Trace regSig.locking
  result : Except Errno Timespec64
  clock : List Nat

/-- Calls one after the other, on a clock that never goes back: before, between and during them it
may advance by any amount. -/
structure GettimeRun (phy : Gpy211Device) (cs : List GettimeCall) : Prop where
  runs : ∀ c ∈ cs, (gpy2xxPtpGettime phy).Runs c.trace c.result
  shows : ∀ c ∈ cs, List.Forall₂ (ShowsTime phy) (accesses c.trace) c.clock
  advances : (cs.flatMap (·.clock)).Pairwise (· ≤ ·)

def Timespec64.toNs (ts : Timespec64) : Nat := ts.tvSec.toNat * 10 ^ 9 + ts.tvNsec.toNat

/-- A call that succeeds returns a time between those at its first and its last read. -/
def GettimeCall.Between (c : GettimeCall) : Prop :=
  ∀ ts, c.result = .ok ts →
    (∀ now ∈ c.clock.head?, now ≤ ts.toNs) ∧ ∀ now ∈ c.clock.getLast?, ts.toNs ≤ now

/-- The time put together from the four reads is not torn. While only the nanoseconds advance, their
low half must not go back from the third read to the fourth. Where a second is over, and the high half
of the seconds has not changed by the second read, the nanoseconds must not go back. Where it has
changed, the seconds must not be ahead of the last read. -/
def Untorn (c₁ c₂ c₃ c₄ : Nat) : Prop :=
  if secOf c₁ = secOf c₄ then lowHalf (nsecOf c₃) ≤ lowHalf (nsecOf c₄)
  else if highHalf (secOf c₁) = highHalf (secOf c₂) then
    nsecOf c₁ ≤ joinHalves (highHalf (nsecOf c₄)) (lowHalf (nsecOf c₃))
  else
    joinHalves (highHalf (secOf c₂)) (lowHalf (secOf c₁)) < secOf c₄ ∨
      (joinHalves (highHalf (secOf c₂)) (lowHalf (secOf c₁)) = secOf c₄ ∧
        lowHalf (nsecOf c₃) ≤ lowHalf (nsecOf c₄))

instance (c₁ c₂ c₃ c₄ : Nat) : Decidable (Untorn c₁ c₂ c₃ c₄) := by
  unfold Untorn
  infer_instance

/-- The condition on a call, if none of its reads fails. -/
def GettimeCall.Untorn (c : GettimeCall) : Prop :=
  AllOk (accesses c.trace) → ∀ c₁ c₂ c₃ c₄, c.clock = [c₁, c₂, c₃, c₄] → Gpy2xx.Untorn c₁ c₂ c₃ c₄

/-- The times that the calls return, in nanoseconds. -/
def returnedTimes (cs : List GettimeCall) : List Nat :=
  cs.filterMap fun c => match c.result with
    | .ok ts => some ts.toNs
    | .error _ => none

/-! ## Four reads -/

/-- The time that four reads make. -/
def assembled (c₁ c₂ c₃ c₄ : Nat) : Nat :=
  joinHalves (highHalf (secOf c₂)) (lowHalf (secOf c₁)) * 10 ^ 9 +
    joinHalves (highHalf (nsecOf c₄)) (lowHalf (nsecOf c₃))

theorem assembled_between_iff {c₁ c₂ c₃ c₄ : Nat} (h₁₂ : c₁ ≤ c₂) (h₂₃ : c₂ ≤ c₃) (h₃₄ : c₃ ≤ c₄) :
    (c₁ ≤ assembled c₁ c₂ c₃ c₄ ∧ assembled c₁ c₂ c₃ c₄ ≤ c₄) ↔ Untorn c₁ c₂ c₃ c₄ := by
  unfold Untorn assembled joinHalves highHalf lowHalf secOf nsecOf
  split
  · -- the seconds are right, and the nanoseconds are not below those at the third read
    omega
  · split
    · -- the seconds are those at the first read, before the last one's
      omega
    · -- the seconds are ahead of the first read
      omega

theorem toNat_halves (low high : BitVec 16) :
    (low.setWidth 64 ||| high.setWidth 64 <<< 16).toNat = joinHalves high.toNat low.toNat := by
  have hlow := low.isLt
  have hhigh := high.isLt
  have hwide : (high.setWidth 64 <<< 16).toNat = high.toNat <<< 16 := by
    rw [BitVec.toNat_shiftLeft, BitVec.toNat_setWidth, Nat.shiftLeft_eq, Nat.shiftLeft_eq]
    omega
  rw [BitVec.toNat_or, hwide, BitVec.toNat_setWidth, Nat.mod_eq_of_lt (by omega), Nat.or_comm,
    ← Nat.shiftLeft_add_eq_or_of_lt hlow, Nat.shiftLeft_eq]
  rfl

/-- The nanoseconds leave the top bit of their register alone. -/
theorem and_mask_of_nsec {v : BitVec 16} {now : Nat} (hv : v.toNat = highHalf (nsecOf now)) :
    v &&& 0x7FFF = v := by
  have hlt : v.toNat < 2 ^ 15 := by
    rw [hv, highHalf, nsecOf]
    omega
  apply BitVec.eq_of_toNat_eq
  rw [BitVec.toNat_and]
  exact Nat.and_two_pow_sub_one_of_lt_two_pow hlt

section Calls
variable {phy : Gpy211Device} {c : GettimeCall} {ts : Timespec64}

/-- A call that succeeds makes four reads. -/
theorem runs_gettime_ok {t : Trace regSig.locking} (h : (gpy2xxPtpGettime phy).Runs t (.ok ts)) :
    ∃ v₁ v₂ v₃ v₄, accesses t =
      [⟨.smdioRead (smdioReg (phy.gmacfBaseAddr + systemTimeSecondsL)), .ok v₁⟩,
        ⟨.smdioRead (smdioReg (phy.gmacfBaseAddr + systemTimeSecondsH)), .ok v₂⟩,
        ⟨.smdioRead (smdioReg (phy.gmacfBaseAddr + systemTimeNanosecondsL)), .ok v₃⟩,
        ⟨.smdioRead (smdioReg (phy.gmacfBaseAddr + systemTimeNanosecondsH)), .ok v₄⟩] ∧
      ts = ⟨v₁.setWidth 64 ||| v₂.setWidth 64 <<< 16,
        v₃.setWidth 64 ||| (v₄ &&& 0x7FFF).setWidth 64 <<< 16⟩ := by
  have hbody := Runs.accesses_locked h
  rcases (runs_smdioRead_bind).mp hbody with ⟨e, -, hc⟩ | ⟨v₁, t₁, hacc, h₁⟩
  · cases hc
  rcases (runs_smdioRead_bind).mp h₁ with ⟨e, -, hc⟩ | ⟨v₂, t₂, rfl, h₂⟩
  · cases hc
  rcases (runs_smdioRead_bind).mp h₂ with ⟨e, -, hc⟩ | ⟨v₃, t₃, rfl, h₃⟩
  · cases hc
  rcases (runs_smdioRead_bind).mp h₃ with ⟨e, -, hc⟩ | ⟨v₄, t₄, rfl, h₄⟩
  · cases hc
  obtain ⟨rfl, hts⟩ := h₄
  cases hts
  exact ⟨v₁, v₂, v₃, v₄, hacc, rfl⟩

/-- A call fails when one of its reads does. -/
theorem not_allOk_of_gettime_error {t : Trace regSig.locking} {e : Errno}
    (h : (gpy2xxPtpGettime phy).Runs t (.error e)) : ¬AllOk (accesses t) := by
  have hfails : FailsOn (fun e => refused e) (do
      let secL ← smdioReadAt (phy.gmacfBaseAddr + systemTimeSecondsL)
      let secH ← smdioReadAt (phy.gmacfBaseAddr + systemTimeSecondsH)
      let nsecL ← smdioReadAt (phy.gmacfBaseAddr + systemTimeNanosecondsL)
      let nsecH ← smdioReadAt (phy.gmacfBaseAddr + systemTimeNanosecondsH)
      pure (⟨secL.setWidth 64 ||| secH.setWidth 64 <<< 16,
        nsecL.setWidth 64 ||| (nsecH &&& 0x7FFF).setWidth 64 <<< 16⟩ : Timespec64)) :=
    GoesOn.bind failsOn_smdioRead fun _ => GoesOn.bind failsOn_smdioRead fun _ =>
      GoesOn.bind failsOn_smdioRead fun _ => GoesOn.bind failsOn_smdioRead fun _ =>
        GoesOn.pure trivial
  intro hall
  have hok := (hfails _ _ (Runs.accesses_locked h)).mpr fun ev hev href => by
    have hsucceeded := hall ev hev
    simp [refused, hsucceeded] at href
  obtain ⟨_, hok, -⟩ := hok
  cases hok

/-- What a call returns is put together from the times at its four reads. -/
theorem toNs_gettime (hrun : (gpy2xxPtpGettime phy).Runs c.trace (.ok ts))
    (hshows : List.Forall₂ (ShowsTime phy) (accesses c.trace) c.clock) :
    AllOk (accesses c.trace) ∧ ∃ c₁ c₂ c₃ c₄, c.clock = [c₁, c₂, c₃, c₄] ∧
      ts.toNs = assembled c₁ c₂ c₃ c₄ := by
  obtain ⟨v₁, v₂, v₃, v₄, hacc, rfl⟩ := runs_gettime_ok hrun
  rw [hacc] at hshows
  obtain ⟨c₁, _, h₁, hrest₁, hclock⟩ := List.forall₂_cons_left_iff.mp hshows
  obtain ⟨c₂, _, h₂, hrest₂, rfl⟩ := List.forall₂_cons_left_iff.mp hrest₁
  obtain ⟨c₃, _, h₃, hrest₃, rfl⟩ := List.forall₂_cons_left_iff.mp hrest₂
  obtain ⟨c₄, _, h₄, hrest₄, rfl⟩ := List.forall₂_cons_left_iff.mp hrest₃
  rw [List.forall₂_nil_left_iff.mp hrest₄] at hclock
  have h₁ := h₁.1 rfl
  have h₂ := h₂.2.1 rfl
  have h₃ := h₃.2.2.1 rfl
  have h₄ := h₄.2.2.2 rfl
  refine ⟨by rw [hacc]; simp [AllOk, RegOp.succeeded, Except.isOk, Except.toBool],
    c₁, c₂, c₃, c₄, hclock, ?_⟩
  rw [Timespec64.toNs, toNat_halves, and_mask_of_nsec h₄, toNat_halves, h₁, h₂, h₃, h₄]
  rfl

/-- One call. -/
theorem between_iff_untorn (hrun : (gpy2xxPtpGettime phy).Runs c.trace c.result)
    (hshows : List.Forall₂ (ShowsTime phy) (accesses c.trace) c.clock)
    (hadvances : c.clock.Pairwise (· ≤ ·)) : c.Between ↔ c.Untorn := by
  cases hresult : c.result with
  | error e =>
    rw [hresult] at hrun
    refine iff_of_true (fun ts hok => ?_) fun hall => absurd hall (not_allOk_of_gettime_error hrun)
    rw [hresult] at hok
    cases hok
  | ok ts =>
    rw [hresult] at hrun
    obtain ⟨hall, c₁, c₂, c₃, c₄, hclock, hts⟩ := toNs_gettime hrun hshows
    rw [hclock] at hadvances
    have hbetween := @assembled_between_iff c₁ c₂ c₃ c₄ (by simp at hadvances; omega)
      (by simp at hadvances; omega) (by simp at hadvances; omega)
    constructor
    · intro h _ d₁ d₂ d₃ d₄ hclock'
      rw [hclock] at hclock'
      cases hclock'
      have hts' := h ts hresult
      rw [hclock, hts] at hts'
      exact hbetween.mp ⟨hts'.1 c₁ rfl, hts'.2 c₄ rfl⟩
    · intro h ts' hok
      rw [hresult] at hok
      cases hok
      rw [hclock, hts]
      obtain ⟨hlow, hhigh⟩ := hbetween.mpr (h hall c₁ c₂ c₃ c₄ hclock)
      exact ⟨fun now hnow => by cases hnow; exact hlow, fun now hnow => by cases hnow; exact hhigh⟩

end Calls

/-! ## Runs of calls -/

section Runs
variable {phy : Gpy211Device} {cs : List GettimeCall}

/-- In every run of calls each time lies between those at its first and its last read exactly when none
is torn; and then the times never go back. -/
theorem gettime_consistent_iff (hrun : GettimeRun phy cs) :
    ((∀ c ∈ cs, c.Between) ↔ ∀ c ∈ cs, c.Untorn) ∧
      ((∀ c ∈ cs, c.Untorn) → (returnedTimes cs).Pairwise (· ≤ ·)) := by
  obtain ⟨hwithin, hacross⟩ := List.pairwise_flatMap.mp hrun.advances
  have hcall : ∀ c ∈ cs, (c.Between ↔ c.Untorn) := fun c hc =>
    between_iff_untorn (hrun.runs c hc) (hrun.shows c hc) (hwithin c hc)
  refine ⟨forall₂_congr hcall, fun huntorn => ?_⟩
  rw [returnedTimes, List.pairwise_filterMap]
  refine hacross.imp_of_mem fun {a b} ha hb hab x hx y hy => ?_
  -- what one call returns is not after its last read, and that is before the next call's first
  cases hra : a.result with
  | error e => simp [hra] at hx
  | ok ts =>
    cases hrb : b.result with
    | error e => simp [hrb] at hy
    | ok ts' =>
      obtain rfl : ts.toNs = x := by simpa [hra] using hx
      obtain rfl : ts'.toNs = y := by simpa [hrb] using hy
      have hra' := hrun.runs a ha
      have hrb' := hrun.runs b hb
      rw [hra] at hra'
      rw [hrb] at hrb'
      obtain ⟨-, a₁, a₂, a₃, a₄, hclocka, -⟩ := toNs_gettime hra' (hrun.shows a ha)
      obtain ⟨-, b₁, b₂, b₃, b₄, hclockb, -⟩ := toNs_gettime hrb' (hrun.shows b hb)
      have hlast := ((hcall a ha).mpr (huntorn a ha) ts hra).2 a₄ (by simp [hclocka])
      have hfirst := ((hcall b hb).mpr (huntorn b hb) ts' hrb).1 b₁ (by simp [hclockb])
      have hbetween := hab a₄ (by simp [hclocka]) b₁ (by simp [hclockb])
      omega

end Runs

/-! ## A second that is over between two reads -/

/-- A call whose reads are answered with these half-words. -/
def gettimeCall (secL secH nsecL nsecH : BitVec 16) (clock : List Nat) : GettimeCall where
  trace := [⟨.lock, ()⟩, ⟨.acc (.smdioRead 0x8B08), .ok secL⟩, ⟨.acc (.smdioRead 0x8B0A), .ok secH⟩,
    ⟨.acc (.smdioRead 0x8B0C), .ok nsecL⟩, ⟨.acc (.smdioRead 0x8B0E), .ok nsecH⟩, ⟨.unlock, ()⟩]
  result := .ok ⟨secL.setWidth 64 ||| secH.setWidth 64 <<< 16,
    nsecL.setWidth 64 ||| (nsecH &&& 0x7FFF).setWidth 64 <<< 16⟩
  clock := clock

/-- A nanosecond before the second is over. -/
def lastNs : GettimeCall :=
  gettimeCall 0 0 0xC9FF 0x3B9A [999999999, 999999999, 999999999, 999999999]

/-- A call from then on: the second is over after its first read. -/
def tornCall : GettimeCall := gettimeCall 0 0 0 0 [999999999, 1000000000, 1000000000, 1000000000]

/-- A call from then on, a second later. -/
def nextCall : GettimeCall := gettimeCall 1 0 5 0 [1000000005, 1000000005, 1000000005, 1000000005]

theorem runs_gettimeCall (secL secH nsecL nsecH : BitVec 16) (clock : List Nat) :
    (gpy2xxPtpGettime (ptpPhy 406250000)).Runs (gettimeCall secL secH nsecL nsecH clock).trace
      (gettimeCall secL secH nsecL nsecH clock).result :=
  ⟨(), _, rfl, .ok secL, _, rfl, .ok secH, _, rfl, .ok nsecL, _, rfl, .ok nsecH, _, rfl, (), _, rfl, rfl,
    rfl⟩

theorem shows_gettimeCall {secL secH nsecL nsecH : BitVec 16} {c₁ c₂ c₃ c₄ : Nat}
    (h₁ : secL.toNat = lowHalf (secOf c₁)) (h₂ : secH.toNat = highHalf (secOf c₂))
    (h₃ : nsecL.toNat = lowHalf (nsecOf c₃)) (h₄ : nsecH.toNat = highHalf (nsecOf c₄)) :
    List.Forall₂ (ShowsTime (ptpPhy 406250000))
      (accesses (gettimeCall secL secH nsecL nsecH [c₁, c₂, c₃, c₄]).trace)
      (gettimeCall secL secH nsecL nsecH [c₁, c₂, c₃, c₄]).clock := by
  refine .cons ⟨fun _ => h₁, fun h => ?_, fun h => ?_, fun h => ?_⟩ (.cons ⟨fun h => ?_, fun _ => h₂,
    fun h => ?_, fun h => ?_⟩ (.cons ⟨fun h => ?_, fun h => ?_, fun _ => h₃, fun h => ?_⟩ (.cons
    ⟨fun h => ?_, fun h => ?_, fun h => ?_, fun _ => h₄⟩ .nil)))
  all_goals exact absurd h (by decide)

theorem gettimeRun_nextCall : GettimeRun (ptpPhy 406250000) [lastNs, nextCall] where
  runs := by
    simp only [List.forall_mem_cons, List.not_mem_nil, false_imp_iff, implies_true, and_true]
    exact ⟨runs_gettimeCall _ _ _ _ _, runs_gettimeCall _ _ _ _ _⟩
  shows := by
    simp only [List.forall_mem_cons, List.not_mem_nil, false_imp_iff, implies_true, and_true]
    exact ⟨shows_gettimeCall rfl rfl rfl rfl, shows_gettimeCall rfl rfl rfl rfl⟩
  advances := by decide

theorem between_nextCall : (∀ c ∈ [lastNs, nextCall], c.Between) ∧
    (returnedTimes [lastNs, nextCall]).Pairwise (· ≤ ·) := by
  have hconsistent := gettime_consistent_iff gettimeRun_nextCall
  have huntorn : ∀ c ∈ [lastNs, nextCall], c.Untorn := by
    simp only [List.forall_mem_cons, List.not_mem_nil, false_imp_iff, implies_true, and_true]
    constructor
    · intro _ c₁ c₂ c₃ c₄ h
      cases h
      decide
    · intro _ c₁ c₂ c₃ c₄ h
      cases h
      decide
  exact ⟨hconsistent.1.mpr huntorn, hconsistent.2 huntorn⟩

/-- The torn call returns 0 seconds and 0 nanoseconds, a second before the call before it. -/
theorem not_between_tornCall : GettimeRun (ptpPhy 406250000) [lastNs, tornCall] ∧
    ¬(∀ c ∈ [lastNs, tornCall], c.Between) ∧ returnedTimes [lastNs, tornCall] = [999999999, 0] := by
  refine ⟨⟨?_, ?_, by decide⟩, fun h => ?_, by decide⟩
  · simp only [List.forall_mem_cons, List.not_mem_nil, false_imp_iff, implies_true, and_true]
    exact ⟨runs_gettimeCall _ _ _ _ _, runs_gettimeCall _ _ _ _ _⟩
  · simp only [List.forall_mem_cons, List.not_mem_nil, false_imp_iff, implies_true, and_true]
    exact ⟨shows_gettimeCall rfl rfl rfl rfl, shows_gettimeCall rfl rfl rfl rfl⟩
  · have hlow := (h tornCall (by simp) _ rfl).1 999999999 rfl
    revert hlow
    decide

end Gpy2xx
