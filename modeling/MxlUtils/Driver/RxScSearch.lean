import MxlUtils.Driver.RxScCommands
import Mathlib.Logic.Relation

/- The search for a receive channel and the commands that use it, in every state the
   driver may get into. The list stays well formed, but the search steps from the head
   of the list each time: it is right in a list of at most one channel or for one of the
   first two, and does not end otherwise. It returns NULL for a channel that is not
   there, and two of its three callers test for an error instead. -/
namespace Gpy211Gennl
open Loop Chain

variable {s s' : Driver} {l : List (Addr × RxSc)} {sci : BitVec 64} {r : Request}

/-- The states the commands that return lead to, from a driver without channels. -/
def Reachable (s : Driver) : Prop :=
  ∃ s₀, Initial s₀ ∧ Relation.ReflTransGen (fun s s' => ∃ r, Step s r s') s₀ s

theorem lists_of_initial (h : Initial s) : Lists s [] := ⟨h.2.2.1, by simp⟩

/-- Every command keeps the list well formed. -/
theorem lists_of_reachable (h : Reachable s) : ∃ l, Lists s l := by
  obtain ⟨s₀, hinit, hsteps⟩ := h
  induction hsteps with
  | refl => exact ⟨[], lists_of_initial hinit⟩
  | tail _ hstep ih =>
    obtain ⟨l, hl⟩ := ih
    obtain ⟨r, hr⟩ := hstep
    obtain ⟨l', hl', -⟩ := change_of_step hl hr
    exact ⟨l', hl'⟩

/-- The SCI a request is looked up by, if it gets as far as that. -/
def Request.searches (r : Request) : Option (BitVec 64) :=
  match r.command with
  | .updRxsc => r.attrs.rxscRequest.map (·.2)
  | .delRxsc => r.attrs.rxscSci
  | .addRxsa => (r.attrs.rxsaRequest r.env).map (·.2.2)
  | .addRxsc => none
  | .addTxsa => none

/-- The search ends, with an element that has the SCI or, if there is none, with NULL. -/
def FindsRight (s : Driver) (l : List (Addr × RxSc)) (sci : BitVec 64) : Prop :=
  ∃ p, (∃ fuel, findRxScRtnl fuel sci s = .done p s) ∧
    ((∃ x ∈ l, x.2.sci = sci ∧ p = .ptr (some x.1)) ∨ (∀ x ∈ l, x.2.sci ≠ sci) ∧ p = .ptr none)

/-- The call returns the error for a channel that is not there. -/
def TakesNotFound (s : Driver) (r : Request) : Prop :=
  ∃ fuel c s', r.call fuel s = .exit .notFound c s'

theorem exists_reached_iff :
    (∃ x, reached sci l = some x) ↔ ∃ x ∈ l.take 2, x.2.sci = sci := by
  rw [← Option.isSome_iff_exists, reached, List.find?_isSome]
  simp

theorem findsRight_iff (h : Lists s l) :
    FindsRight s l sci ↔ l.length ≤ 1 ∨ ∃ x ∈ l.take 2, x.2.sci = sci := by
  constructor
  · rintro ⟨p, ⟨fuel, hfuel⟩, -⟩
    rcases @find_bind_cases ErrPtr s sci fuel pure with ⟨q, hq, -⟩ | hoops | hspins
    · rcases search_cases h hq with ⟨x, hx, -⟩ | ⟨hlen, -⟩
      · exact .inr (exists_reached_iff.mp ⟨x, hx⟩)
      · exact .inl hlen
    · rw [bind_apply, hfuel] at hoops
      cases hoops
    · rw [bind_apply, hfuel] at hspins
      cases hspins
  · intro hcond
    cases hx : reached sci l with
    | some x =>
      obtain ⟨l₁, l₂, hl, hsci⟩ := append_of_reached hx
      exact ⟨_, (settles_find (search_of_reached h hx)).enough, .inl ⟨x, by simp [hl], hsci, rfl⟩⟩
    | none =>
      have hnone : ∀ x ∈ l.take 2, x.2.sci ≠ sci := by simpa [reached] using hx
      have hlen : l.length ≤ 1 := hcond.resolve_right fun hfound => hfound.elim fun x hx => hnone x hx.1 hx.2
      rw [List.take_of_length_le (by omega)] at hnone
      exact ⟨_, (settles_find (search_of_short h hlen hx)).enough, .inr ⟨hnone, rfl⟩⟩

/-! ## The callers -/

theorem updRxscAt_ne_notFound {tb : RxscAttrs} {p : Option Addr} {c : Int} :
    updRxscAt tb (.ptr p) s ≠ .exit .notFound c s' := by
  cases hactive : tb.active with
  | none =>
    cases p with
    | none => simp [updRxscAt_null hactive]
    | some a => simp [updRxscAt_keep hactive]
  | some active =>
    cases p with
    | none => simp [updRxscAt_null_oops hactive]
    | some a =>
      cases ha : s.heap a with
      | none => simp [updRxscAt, isErr, hactive, bind_apply, deref, ha]
      | some n => simp [updRxscAt_done hactive ha]

theorem programRxsa_ne_notFound {env : Env} {tb : SaAttrs} {dev : NetDevice} {key : List (BitVec 8)} {c : Int}
    (hkey : tb.key = some key) : programRxsa env tb dev s ≠ .exit .notFound c s' := by
  cases hpn : tb.pn with
  | none => simp [programRxsa_oops hpn]
  | some pn =>
    simp only [programRxsa_eq hpn hkey rfl rfl]
    split_ifs <;> simp

theorem addRxsaAt_ne_notFound {env : Env} {tb : SaAttrs} {dev : NetDevice} {p : Option Addr} {c : Int}
    (hvalid : validateAddRxsa tb = true) : addRxsaAt env tb dev (.ptr p) s ≠ .exit .notFound c s' := by
  obtain ⟨an, key, han, hkey⟩ := exists_of_validateAddRxsa hvalid
  cases p with
  | none => simp [addRxsaAt_null]
  | some a =>
    cases ha : s.heap a with
    | none => simp [addRxsaAt, isErr, han, modifyIng, bind_apply, deref, ha, modify]
    | some n =>
      simp only [addRxsaAt_eq han ha]
      split_ifs
      · simp
      · exact programRxsa_ne_notFound hkey
      · simp

/-- A caller that tests for an error never takes the way out: the search ends with a pointer. -/
theorem find_ne_notFound {f : ErrPtr → Call Int} {fuel : Nat} {c : Int} (h : Lists s l)
    (hf : ∀ p, f (.ptr p) s ≠ .exit .notFound c s') :
    (findRxScRtnl fuel sci >>= f) s ≠ .exit .notFound c s' := by
  rcases find_bind_cases f with ⟨p, hp, heq⟩ | hoops | hspins
  · rw [heq]
    rcases search_cases h hp with ⟨x, -, rfl⟩ | ⟨-, -, rfl⟩
    · exact hf _
    · exact hf _
  · simp [hoops]
  · simp [hspins]

theorem not_takesNotFound (h : Lists s l) (hcmd : r.command ≠ .delRxsc) (hsci : r.searches = some sci) :
    ¬TakesNotFound s r := by
  rintro ⟨fuel, c, s', hcall⟩
  rw [Request.call] at hcall
  rw [Request.searches] at hsci
  cases hcommand : r.command with
  | addRxsc => simp [hcommand] at hsci
  | addTxsa => simp [hcommand] at hsci
  | delRxsc => exact hcmd hcommand
  | updRxsc =>
    simp only [hcommand] at hsci hcall
    obtain ⟨⟨tb, sci'⟩, hreq, rfl⟩ := Option.map_eq_some_iff.mp hsci
    rw [updRxsc_of_request hreq] at hcall
    exact find_ne_notFound h (fun p => updRxscAt_ne_notFound) hcall
  | addRxsa =>
    simp only [hcommand] at hsci hcall
    obtain ⟨⟨tb, dev, sci'⟩, hreq, rfl⟩ := Option.map_eq_some_iff.mp hsci
    rw [addRxsa_of_request hreq] at hcall
    have h' : Lists (s.rxConfigured dev sci') l := h.congr rfl rfl
    exact find_ne_notFound h' (fun p => addRxsaAt_ne_notFound (validate_of_rxsaRequest hreq)) hcall

theorem takesNotFound_delRxsc_iff (h : Lists s l) (hcmd : r.command = .delRxsc) (hsci : r.searches = some sci) :
    TakesNotFound s r ↔ ∀ x ∈ l, x.2.sci ≠ sci := by
  have hreq : r.attrs.rxscSci = some sci := by simpa [Request.searches, hcmd] using hsci
  have hcall : ∀ fuel, r.call fuel s = (delRxSc fuel sci >>= delRxscAt) s := by
    intro fuel
    rw [Request.call, hcmd, ← delRxsc_of_sci hreq]
  cases hfind : l.find? (·.2.sci = sci) with
  | none =>
    have habsent : ∀ x ∈ l, x.2.sci ≠ sci := by simpa using hfind
    obtain ⟨fuel, hfuel⟩ := ((settles_delRxSc_absent h habsent).bind delRxscAt).enough
    exact iff_of_true ⟨fuel, enodev, s, (hcall fuel).trans hfuel⟩ habsent
  | some x =>
    obtain ⟨hn, l₁, l₂, rfl, hfirst⟩ := List.find?_eq_some_iff_append.mp hfind
    obtain ⟨a, n⟩ := x
    have hn : n.sci = sci := by simpa using hn
    have hfirst : ∀ x ∈ l₁, x.2.sci ≠ sci := by simpa using hfirst
    refine iff_of_false ?_ fun habsent => habsent (a, n) (by simp) hn
    rintro ⟨fuel, c, s', hexit⟩
    rw [hcall] at hexit
    have hout := ((settles_delRxSc h hfirst hn).bind delRxscAt).unique (by rw [hexit]; simp)
    rw [hexit, Outcome.bind, delRxscAt_done] at hout
    cases hout

/-- In every state the driver may get into, the search is right exactly in a list of at most one
channel or for one of the first two, and a caller that gets as far as the search takes its
way out for a missing channel exactly when the channel is missing, if the caller is the
deletion or the channel is not missing, and not otherwise. -/
theorem rxScSearch_iff (hs : Reachable s) : ∃ l, Lists s l ∧
    (∀ sci, FindsRight s l sci ↔ l.length ≤ 1 ∨ ∃ x ∈ l.take 2, x.2.sci = sci) ∧
    ∀ r sci, Request.searches r = some sci →
      ((TakesNotFound s r ↔ ∀ x ∈ l, x.2.sci ≠ sci) ↔ r.command = .delRxsc ∨ ∃ x ∈ l, x.2.sci = sci) := by
  obtain ⟨l, hl⟩ := lists_of_reachable hs
  refine ⟨l, hl, fun sci => findsRight_iff hl, fun r sci hsci => ?_⟩
  by_cases hcmd : r.command = .delRxsc
  · simp [takesNotFound_delRxsc_iff hl hcmd hsci, hcmd]
  · simp [not_takesNotFound hl hcmd hsci, hcmd]

/-! ## Three channels -/

def blankConf : SecyConf := ⟨false, 0, false, false, 0, 16, 16, 0, 0, false, false, false, false⟩

def blankData : MacsecData where
  transRec := ⟨0, ⟨.gcmAes128, 0, .sn32Bit⟩,
    ⟨fun _ => 0, fun _ => 0, fun _ => 0, ⟨fun _ => 0, fun _ => 0⟩⟩, ⟨0, 0, 0⟩, ⟨0, 0, 0, 0, 0⟩⟩
  samParam := ⟨0, fun _ => 0, fun _ => 0, 0, 0, 0, fun _ => 0, 0, 0⟩

def emptyDriver : Driver := ⟨fun _ => none, ⟨0, blankConf, fun _ => none, none⟩, blankData, blankData⟩

/-- A message to add a channel, with memory at `a` for it. -/
def addChannel (a : Addr) (sci : BitVec 64) (active : Option (BitVec 8)) : Request where
  command := .addRxsc
  attrs := ⟨some 1, some (some ⟨some sci, active⟩), none⟩
  env := ⟨fun _ => none, some a, true, fun _ => 0, fun _ => 0, fun _ => 0, fun _ => 0⟩

theorem step_addChannel {a : Addr} {active : Option (BitVec 8)} (hactive : activeValid active = true)
    (hfresh : s.heap a = none) :
    Step s (addChannel a sci active) (s.added a sci (active.all (· ≠ 0))) := by
  have hreq : (addChannel a sci active).attrs.rxscRequest = some (⟨some sci, active⟩, sci) := by
    simp [addChannel, Attrs.rxscRequest, validateAddRxsc, hactive]
  refine ⟨fun b hb => Option.some.inj hb ▸ hfresh, 0, ?_⟩
  rw [Request.call]
  simp only [addChannel] at hreq ⊢
  rw [addRxsc_of_request hreq, addRxsc_done rfl]
  rfl

theorem reachable_added {a : Addr} (h : Reachable s) (hfresh : s.heap a = none) :
    Reachable (s.added a sci true) := by
  obtain ⟨s₀, hinit, hsteps⟩ := h
  exact ⟨s₀, hinit, hsteps.tail ⟨addChannel a sci none, step_addChannel rfl hfresh⟩⟩

theorem reachable_emptyDriver : Reachable emptyDriver := ⟨emptyDriver, ⟨rfl, rfl, rfl, rfl⟩, .refl⟩

def threeChannels : Driver := ((emptyDriver.added 1 10 true).added 2 20 true).added 3 30 true

theorem reachable_threeChannels : Reachable threeChannels := by
  have h₁ : Reachable (emptyDriver.added 1 10 true) := reachable_added reachable_emptyDriver rfl
  have h₂ : Reachable ((emptyDriver.added 1 10 true).added 2 20 true) :=
    reachable_added h₁ (by simp [Driver.added, emptyDriver])
  exact reachable_added h₂ (by simp [Driver.added, emptyDriver])

theorem search_threeChannels : ∃ l, Lists threeChannels l ∧
    (∀ sci, FindsRight threeChannels l sci ↔ l.length ≤ 1 ∨ ∃ x ∈ l.take 2, x.2.sci = sci) ∧
    ∀ r sci, Request.searches r = some sci → ((TakesNotFound threeChannels r ↔ ∀ x ∈ l, x.2.sci ≠ sci) ↔
      r.command = .delRxsc ∨ ∃ x ∈ l, x.2.sci = sci) :=
  rxScSearch_iff reachable_threeChannels

/-- The search for the first of three channels that were added goes round for ever. -/
theorem not_findsRight_threeChannels : ¬∀ s, Reachable s → ∃ l, Lists s l ∧ (∀ sci, FindsRight s l sci) ∧
    ∀ r sci, Request.searches r = some sci → (TakesNotFound s r ↔ ∀ x ∈ l, x.2.sci ≠ sci) := by
  intro hclaim
  obtain ⟨l, hl, hfinds, -⟩ := hclaim threeChannels reachable_threeChannels
  have h₁ : Lists (emptyDriver.added 1 10 true) _ := (lists_of_initial ⟨rfl, rfl, rfl, rfl⟩).added rfl
  have h₂ : Lists ((emptyDriver.added 1 10 true).added 2 20 true) _ :=
    h₁.added (by simp [Driver.added, emptyDriver])
  have h₃ : Lists threeChannels _ := h₂.added (by simp [Driver.added, emptyDriver])
  obtain rfl := hl.unique h₃
  have hcond := (findsRight_iff h₃).mp (hfinds 10)
  simp at hcond

end Gpy211Gennl
