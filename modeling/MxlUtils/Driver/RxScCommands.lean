import MxlUtils.Driver.SaCommands

/- What a command does to the list of receive channels and to its count. The list is
   seen as a table of identifiers with their active flags. A command that returns has
   added a row, changed one, taken one out or left the table alone, and which of these
   it is can be read off the request. -/
namespace Gpy211Gennl
open Loop Chain

variable {α β : Type} {s s' : Driver} {l l₁ l₂ : List (Addr × RxSc)} {a b : Addr} {n m : RxSc}
variable {sci : BitVec 64} {fuel : Nat} {attrs : Attrs} {env : Env} {tb : RxscAttrs} {r : Request}
variable {F : Frame}

/-! ## Requests -/

/-- The attributes of a request to add or change a channel, if they are accepted. -/
def Attrs.rxscRequest (attrs : Attrs) : Option (RxscAttrs × BitVec 64) :=
  if attrs.ifindex.isSome then
    attrs.rxscConfig.join.bind fun tb => if validateAddRxsc tb then tb.sci.map (tb, ·) else none
  else none

/-- The SCI of a request to delete a channel. -/
def Attrs.rxscSci (attrs : Attrs) : Option (BitVec 64) :=
  if attrs.ifindex.isSome then attrs.rxscConfig.join.bind (·.sci) else none

/-- The active flag a new channel ends up with. -/
def RxscAttrs.activeFlag (tb : RxscAttrs) : Bool := tb.active.all (· ≠ 0)

theorem updRxsc_of_request (h : attrs.rxscRequest = some (tb, sci)) :
    updRxsc fuel attrs = findRxScRtnl fuel sci >>= updRxscAt tb := by
  obtain ⟨_ | ifindex, _ | _ | tb', saConfig⟩ := attrs <;> simp [Attrs.rxscRequest] at h
  obtain ⟨hvalid, hsci, rfl⟩ := h
  simp [updRxsc, parseRxscConfig, hvalid, hsci]

theorem updRxsc_of_none (h : attrs.rxscRequest = none) : updRxsc fuel attrs = exit .invalid einval := by
  obtain ⟨_ | ifindex, _ | _ | tb, saConfig⟩ := attrs <;>
    simp [updRxsc, parseRxscConfig]
  cases hvalid : validateAddRxsc tb with
  | false => rfl
  | true =>
    have hsci : tb.sci = none := by simpa [Attrs.rxscRequest, hvalid] using h
    simp [validateAddRxsc, hsci] at hvalid

theorem addRxsc_of_request (h : attrs.rxscRequest = some (tb, sci)) :
    addRxsc env attrs = createRxSc env sci >>= addRxscAt tb := by
  obtain ⟨_ | ifindex, _ | _ | tb', saConfig⟩ := attrs <;> simp [Attrs.rxscRequest] at h
  obtain ⟨hvalid, hsci, rfl⟩ := h
  simp [addRxsc, parseRxscConfig, hvalid, hsci]

theorem addRxsc_of_none (h : attrs.rxscRequest = none) : addRxsc env attrs = exit .invalid einval := by
  obtain ⟨_ | ifindex, _ | _ | tb, saConfig⟩ := attrs <;>
    simp [addRxsc, parseRxscConfig]
  cases hvalid : validateAddRxsc tb with
  | false => rfl
  | true =>
    have hsci : tb.sci = none := by simpa [Attrs.rxscRequest, hvalid] using h
    simp [validateAddRxsc, hsci] at hvalid

theorem delRxsc_of_sci (h : attrs.rxscSci = some sci) :
    delRxsc fuel attrs = delRxSc fuel sci >>= delRxscAt := by
  obtain ⟨_ | ifindex, _ | _ | tb', saConfig⟩ := attrs <;> simp [Attrs.rxscSci] at h
  simp [delRxsc, parseRxscConfig, h]

theorem delRxsc_of_none (h : attrs.rxscSci = none) : delRxsc fuel attrs = exit .invalid einval := by
  obtain ⟨_ | ifindex, _ | _ | tb, saConfig⟩ := attrs <;> simp [Attrs.rxscSci] at h <;>
    simp [delRxsc, parseRxscConfig]
  simp [h]

/-! ## The driver after a command -/

/-- A new channel `a` in front. -/
def Driver.added (s : Driver) (a : Addr) (sci : BitVec 64) (active : Bool) : Driver :=
  { s with
    heap := Function.update s.heap a (some ⟨s.secy.rxSc, sci, active, fun _ => none⟩)
    secy := { s.secy with rxSc := some a, nRxSc := s.secy.nRxSc + 1 } }

/-- The active flag of `a` set, and counted if that changes it. -/
def Driver.activated (s : Driver) (a : Addr) (n : RxSc) (new : Bool) : Driver :=
  { s with
    heap := Function.update s.heap a (some { n with active := new })
    secy := { s.secy with nRxSc := s.secy.nRxSc + if n.active = new then 0 else if new then 1 else -1 } }

theorem createRxSc_none (h : env.rxScMem = none) : createRxSc env sci s = .done (.err enomem) s := by
  simp [createRxSc, h]

theorem addRxscAt_err : addRxscAt tb (.err enomem) s = .exit .noMemory enomem s := rfl

/-- The flag is set, counted, and then written over by the attribute. -/
theorem addRxsc_done (h : env.rxScMem = some a) :
    (createRxSc env sci >>= addRxscAt tb) s = .done 0 (s.added a sci tb.activeFlag) := by
  cases hactive : tb.active with
  | none =>
    simp [createRxSc, h, bind_apply, addRxscAt, isErr, hactive, modify, Driver.added, RxscAttrs.activeFlag]
  | some active =>
    simp [createRxSc, h, bind_apply, addRxscAt, isErr, hactive, modify, deref, setActive, Driver.added,
      RxscAttrs.activeFlag]

theorem updRxscAt_null (h : tb.active = none) : updRxscAt tb (.ptr none) s = .done 0 s := by
  simp [updRxscAt, isErr, h]

theorem updRxscAt_null_oops {active : BitVec 8} (h : tb.active = some active) :
    updRxscAt tb (.ptr none) s = .oops := by
  simp [updRxscAt, isErr, h, bind_apply, deref]

theorem updRxscAt_keep (h : tb.active = none) : updRxscAt tb (.ptr (some a)) s = .done 0 s := by
  simp [updRxscAt, isErr, h]

theorem updRxscAt_done {active : BitVec 8} (h : tb.active = some active) (ha : s.heap a = some n) :
    updRxscAt tb (.ptr (some a)) s = .done 0 (s.activated a n tb.activeFlag) := by
  by_cases hzero : active = 0#8 <;> cases hold : n.active <;>
    simp [updRxscAt, isErr, h, bind_apply, deref, ha, hzero, hold, setActive, modify, Driver.activated,
      RxscAttrs.activeFlag]

theorem delRxscAt_null : delRxscAt (.ptr none) s = .exit .notFound enodev s := rfl

theorem delRxscAt_done : delRxscAt (.ptr (some a)) s =
    .done 0 { s with heap := Function.update s.heap a none } := rfl

/-! ## The table of the channels -/

/-- Identifiers and active flags, in the order of the list. -/
abbrev ScTable := List (BitVec 64 × Bool)

def scTable (l : List (Addr × RxSc)) : ScTable := l.map fun x => (x.2.sci, x.2.active)

/-- The change of the table a request is for. -/
inductive ScWish where
  | keep
  | add (sci : BitVec 64) (active : Bool)
  | update (sci : BitVec 64) (active : Bool)
  | delete (sci : BitVec 64)

/-- A message that is refused, or is given no memory for a channel, is for none. -/
def Request.wish (r : Request) : ScWish :=
  match r.command with
  | .addRxsc =>
    match r.attrs.rxscRequest, r.env.rxScMem with
    | some (tb, sci), some _ => .add sci tb.activeFlag
    | _, _ => .keep
  | .updRxsc =>
    match r.attrs.rxscRequest with
    | some (tb, sci) => if tb.active.isSome then .update sci tb.activeFlag else .keep
    | none => .keep
  | .delRxsc =>
    match r.attrs.rxscSci with
    | some sci => .delete sci
    | none => .keep
  | .addTxsa => .keep
  | .addRxsa => .keep

/-- What becomes of the count and of the table. -/
inductive ScChange : ScWish → BitVec 32 → ScTable → BitVec 32 → ScTable → Prop where
  | keep {c T} : ScChange .keep c T c T
  | add {sci act c T} : ScChange (.add sci act) c T (c + 1) ((sci, act) :: T)
  | update {sci old new c T₁ T₂} : ScChange (.update sci new) c (T₁ ++ (sci, old) :: T₂)
      (c + if old = new then 0 else if new then 1 else -1) (T₁ ++ (sci, new) :: T₂)
  | delete {sci act c T₁ T₂} : ScChange (.delete sci) c (T₁ ++ (sci, act) :: T₂)
      (if act then c - 1 else c) (T₁ ++ T₂)
  | absent {sci c T} (h : sci ∉ T.map Prod.fst) : ScChange (.delete sci) c T c T

theorem Lists.added (h : Lists s l) {act : Bool} (hfresh : s.heap a = none) :
    Lists (s.added a sci act) ((a, ⟨s.secy.rxSc, sci, act, fun _ => none⟩) :: l) :=
  h.push hfresh rfl rfl rfl

theorem Lists.activated (h : Lists s (l₁ ++ (a, n) :: l₂)) {act : Bool} :
    Lists (s.activated a n act) (l₁ ++ (a, { n with active := act }) :: l₂) :=
  h.set rfl rfl rfl

/-- The node taken out and given back. -/
theorem Lists.deleted (h : Lists s (l₁ ++ (a, n) :: l₂)) : ∃ l',
    Lists { s.unlinked n (slotAfter .head l₁) with
      heap := Function.update (s.unlinked n (slotAfter .head l₁)).heap a none } l' ∧
    scTable l' = scTable l₁ ++ scTable l₂ := by
  let s₁ : Driver := if n.active then { s with secy := { s.secy with nRxSc := s.secy.nRxSc - 1 } } else s
  have hs₁ : Lists s₁ (l₁ ++ (a, n) :: l₂) := by
    by_cases hactive : n.active
    · exact h.congr (by simp [s₁, hactive]) (by simp [s₁, hactive])
    · exact h.congr (by simp [s₁, hactive]) (by simp [s₁, hactive])
  rcases List.eq_nil_or_concat l₁ with rfl | ⟨l₀, ⟨b, m⟩, rfl⟩
  · refine ⟨l₂, Lists.outside hs₁.unlink_head (fun x hx => Lists.ne_of_mem h (List.nil_append _ ▸ hx)) rfl rfl, rfl⟩
  · rw [List.concat_eq_append] at h hs₁ ⊢
    have hslot : slotAfter .head (l₀ ++ [(b, m)]) = .next b := by
      rw [slotAfter, List.getLast?_concat, Option.elim_some]
    rw [hslot]
    have hunlink : Lists (s₁.setSlot n.next (.next b)) (l₀ ++ (b, { m with next := n.next }) :: l₂) := by
      apply Lists.unlink (a := a)
      simpa using hs₁
    refine ⟨_, hunlink.outside (fun x hx => ?_) rfl rfl, by simp [scTable]⟩
    rcases List.mem_cons.mp (List.perm_middle.mem_iff.mp hx) with rfl | hx
    · exact h.ne_of_mem (x := (b, m)) (by simp)
    · refine h.ne_of_mem ?_
      rcases List.mem_append.mp hx with h₁ | h₂
      · simp [h₁]
      · simp [h₂]

/-! ## Commands for associations -/

/-- The count and the table of the channels are as they were. -/
def tableFrame : Frame where
  rel s s' := s'.secy.nRxSc = s.secy.nRxSc ∧
    ∀ l, Lists s l → ∃ l', Lists s' l' ∧ scTable l' = scTable l
  refl s := ⟨rfl, fun l h => ⟨l, h, rfl⟩⟩
  trans := by
    rintro s s' s'' ⟨hc, hl⟩ ⟨hc', hl'⟩
    refine ⟨hc'.trans hc, fun l h => ?_⟩
    obtain ⟨l₁, h₁, ht₁⟩ := hl l h
    obtain ⟨l₂, h₂, ht₂⟩ := hl' l₁ h₁
    exact ⟨l₂, h₂, ht₂.trans ht₁⟩
  config s conf ing egr := ⟨rfl, fun l h => ⟨l, h.congr rfl rfl, rfl⟩⟩

theorem keeps_setTxSa {an : BitVec 8} (sa : TxSa) : Keeps tableFrame (setTxSa an sa) := by
  rintro s s' ⟨⟩
  exact ⟨rfl, fun l h => ⟨l, h.congr rfl rfl, rfl⟩⟩

theorem keeps_setRxSa {an : BitVec 8} (sa : RxSa) : Keeps tableFrame (setRxSa a an sa) := by
  rintro s s' ⟨⟩
  refine ⟨rfl, fun l h => ?_⟩
  by_cases ha : a ∈ l.map Prod.fst
  · obtain ⟨⟨a, n⟩, hn, rfl⟩ := List.mem_map.mp ha
    obtain ⟨l₁, l₂, rfl⟩ := List.append_of_mem hn
    refine ⟨_, Lists.set (m := { n with sa := Function.update n.sa (anIndex an) (some sa) }) h rfl ?_ rfl,
      by simp [scTable]⟩
    simp [h.nodes (a, n) (by simp)]
  · refine ⟨l, h.outside (fun x hx hxa => ha ?_) rfl rfl, rfl⟩
    exact hxa ▸ List.mem_map_of_mem hx

theorem keeps_addTxsaAt {tb : SaAttrs} {dev : NetDevice} : Keeps tableFrame (addTxsaAt env tb dev) := by
  refine keeps_bind (keeps_nlaGet _) fun an => ?_
  refine keeps_bind (keeps_modifyEgr _) fun _ => ?_
  refine keeps_bind keeps_get fun s => ?_
  refine keeps_bind (keeps_require _ _ _) fun _ => ?_
  refine keeps_bind (keeps_require _ _ _) fun _ => ?_
  exact keeps_bind (keeps_setTxSa _) fun _ => keeps_programTxsa keeps_setTxSa

theorem keeps_addRxsaAt {tb : SaAttrs} {dev : NetDevice} {p : ErrPtr} :
    Keeps tableFrame (addRxsaAt env tb dev p) := by
  refine keeps_bind (keeps_require _ _ _) fun _ => ?_
  refine keeps_bind (keeps_nlaGet _) fun an => ?_
  refine keeps_bind (keeps_modifyIng _) fun _ => ?_
  refine keeps_bind (keeps_deref _) fun x => ?_
  refine keeps_bind (keeps_require _ _ _) fun _ => ?_
  refine keeps_bind (keeps_require _ _ _) fun _ => ?_
  exact keeps_bind (keeps_setRxSa _) fun _ => keeps_programRxsa

theorem keeps_find : Keeps F (findRxScRtnl fuel sci) := by
  intro s s' h
  rw [findRxScRtnl, loop] at h
  split at h
  · obtain rfl : s = s' := by simpa [Outcome.state?] using h
    exact F.refl s
  · cases h
  · cases h

theorem keeps_addTxsa : Keeps tableFrame (addTxsa env attrs) := by
  intro s s' h
  cases hreq : attrs.txsaRequest env with
  | none =>
    obtain ⟨i, c, -, hexit⟩ := addTxsa_of_none (s := s) hreq
    rw [hexit] at h
    obtain rfl : s = s' := by simpa [Outcome.state?] using h
    exact tableFrame.refl s
  | some req =>
    rw [addTxsa_of_request hreq] at h
    exact tableFrame.trans (tableFrame.config s _ s.ingData s.egrData) (keeps_addTxsaAt _ _ h)

theorem keeps_addRxsa : Keeps tableFrame (addRxsa fuel env attrs) := by
  intro s s' h
  cases hreq : attrs.rxsaRequest env with
  | none =>
    obtain ⟨i, c, conf, -, hexit⟩ := addRxsa_of_none (s := s) fuel hreq
    rw [hexit] at h
    obtain rfl : _ = s' := by simpa [Outcome.state?] using h
    exact tableFrame.config s conf s.ingData s.egrData
  | some req =>
    rw [addRxsa_of_request hreq] at h
    exact tableFrame.trans (tableFrame.config s _ _ s.egrData)
      (keeps_bind keeps_find (fun _ => keeps_addRxsaAt) _ _ h)

/-! ## Steps -/

/-- A call that begins with the search goes on with its result, if there is one. -/
theorem find_bind_cases (f : ErrPtr → Call β) :
    (∃ p, Search s sci p ∧ (findRxScRtnl fuel sci >>= f) s = f p s) ∨
    (findRxScRtnl fuel sci >>= f) s = .oops ∨ (findRxScRtnl fuel sci >>= f) s = .spins := by
  rw [bind_apply, findRxScRtnl, loop]
  cases hrun : Loop.run (findBody sci s) fuel s.secy.rxSc with
  | none => exact .inr (.inr rfl)
  | some o =>
    cases o with
    | none => exact .inr (.inl rfl)
    | some p => exact .inl ⟨p, ⟨fuel, hrun⟩, rfl⟩

theorem search_of_returns {f : ErrPtr → Call β} (h : ((findRxScRtnl fuel sci >>= f) s).state? = some s') :
    ∃ p, Search s sci p ∧ (f p s).state? = some s' := by
  rcases @find_bind_cases β s sci fuel f with ⟨p, hp, heq⟩ | hoops | hspins
  · exact ⟨p, hp, heq ▸ h⟩
  · rw [hoops] at h
    cases h
  · rw [hspins] at h
    cases h

/-- A node the search reaches, in its place in the list. -/
theorem append_of_reached {x : Addr × RxSc} (hx : reached sci l = some x) :
    ∃ l₁ l₂, l = l₁ ++ x :: l₂ ∧ x.2.sci = sci := by
  obtain ⟨l₁, l₂, hl⟩ := List.append_of_mem (List.mem_of_mem_take (List.mem_of_find?_eq_some hx))
  exact ⟨l₁, l₂, hl, by simpa using List.find?_some hx⟩

theorem change_of_updRxsc (h : Lists s l) (hcmd : r.command = .updRxsc)
    (hstep : (updRxsc fuel r.attrs s).state? = some s') :
    ∃ l', Lists s' l' ∧ ScChange r.wish s.secy.nRxSc (scTable l) s'.secy.nRxSc (scTable l') := by
  cases hreq : r.attrs.rxscRequest with
  | none =>
    rw [updRxsc_of_none hreq] at hstep
    obtain rfl : s = s' := by simpa [Outcome.state?] using hstep
    exact ⟨l, h, by rw [Request.wish, hcmd]; simp only [hreq]; exact .keep⟩
  | some req =>
    obtain ⟨tb, sci⟩ := req
    rw [updRxsc_of_request hreq] at hstep
    obtain ⟨p, hp, hrest⟩ := search_of_returns hstep
    have hwish : r.wish = if tb.active.isSome then .update sci tb.activeFlag else .keep := by
      rw [Request.wish, hcmd]
      simp only [hreq]
    rw [hwish]
    cases hactive : tb.active with
    | none =>
      -- without the attribute nothing is written, whether or not the channel is there
      have hsame : s = s' := by
        rcases search_cases h hp with ⟨x, -, rfl⟩ | ⟨-, -, rfl⟩
        · simpa [updRxscAt_keep hactive, Outcome.state?] using hrest
        · simpa [updRxscAt_null hactive, Outcome.state?] using hrest
      exact ⟨l, hsame ▸ h, hsame ▸ .keep⟩
    | some active =>
      rcases search_cases h hp with ⟨⟨a, n⟩, hx, rfl⟩ | ⟨-, -, rfl⟩
      · obtain ⟨l₁, l₂, rfl, rfl⟩ := append_of_reached hx
        have ha : s.heap a = some n := h.nodes (a, n) (by simp)
        obtain rfl : s.activated a n tb.activeFlag = s' := by
          simpa [updRxscAt_done hactive ha, Outcome.state?] using hrest
        refine ⟨_, h.activated, ?_⟩
        simp only [scTable, List.map_append, List.map_cons]
        exact .update
      · rw [updRxscAt_null_oops hactive] at hrest
        cases hrest

theorem change_of_delRxsc (h : Lists s l) (hcmd : r.command = .delRxsc)
    (hstep : (delRxsc fuel r.attrs s).state? = some s') :
    ∃ l', Lists s' l' ∧ ScChange r.wish s.secy.nRxSc (scTable l) s'.secy.nRxSc (scTable l') := by
  cases hreq : r.attrs.rxscSci with
  | none =>
    rw [delRxsc_of_none hreq] at hstep
    obtain rfl : s = s' := by simpa [Outcome.state?] using hstep
    exact ⟨l, h, by rw [Request.wish, hcmd]; simp only [hreq]; exact .keep⟩
  | some sci =>
    rw [delRxsc_of_sci hreq] at hstep
    have hwish : r.wish = .delete sci := by
      rw [Request.wish, hcmd]
      simp only [hreq]
    have hreturns : (delRxSc fuel sci >>= delRxscAt) s ≠ .spins := by
      intro hspins
      rw [hspins] at hstep
      cases hstep
    rw [hwish]
    cases hfind : l.find? (·.2.sci = sci) with
    | none =>
      have hsci : ∀ x ∈ l, x.2.sci ≠ sci := by simpa using hfind
      rw [((settles_delRxSc_absent h hsci).bind delRxscAt).unique hreturns, Outcome.bind, delRxscAt_null] at hstep
      obtain rfl : s = s' := by simpa [Outcome.state?] using hstep
      refine ⟨l, h, .absent fun hmem => ?_⟩
      obtain ⟨x, hx, hxsci⟩ := List.mem_map.mp (by simpa [scTable] using hmem : sci ∈ l.map (·.2.sci))
      exact hsci x hx hxsci
    | some x =>
      obtain ⟨hn, l₁, l₂, rfl, hfirst⟩ := List.find?_eq_some_iff_append.mp hfind
      obtain ⟨a, n⟩ := x
      have hn : n.sci = sci := by simpa using hn
      have hfirst : ∀ x ∈ l₁, x.2.sci ≠ sci := by simpa using hfirst
      rw [((settles_delRxSc h hfirst hn).bind delRxscAt).unique hreturns, Outcome.bind, delRxscAt_done] at hstep
      obtain ⟨l', hl', htable⟩ := h.deleted
      obtain rfl : _ = s' := by simpa [Outcome.state?] using hstep
      refine ⟨l', hl', ?_⟩
      rw [htable, ← hn]
      have hcount : (s.unlinked n (slotAfter .head l₁)).secy.nRxSc =
          if n.active then s.secy.nRxSc - 1 else s.secy.nRxSc := by
        cases hactive : n.active <;> cases hslot : slotAfter .head l₁ <;>
          simp [Driver.unlinked, Driver.setSlot, hactive]
      rw [hcount]
      simp only [scTable, List.map_append, List.map_cons]
      exact .delete

theorem change_of_addRxsc (h : Lists s l) (hcmd : r.command = .addRxsc)
    (hfresh : ∀ a, r.env.rxScMem = some a → s.heap a = none)
    (hstep : (addRxsc r.env r.attrs s).state? = some s') :
    ∃ l', Lists s' l' ∧ ScChange r.wish s.secy.nRxSc (scTable l) s'.secy.nRxSc (scTable l') := by
  cases hreq : r.attrs.rxscRequest with
  | none =>
    rw [addRxsc_of_none hreq] at hstep
    obtain rfl : s = s' := by simpa [Outcome.state?] using hstep
    exact ⟨l, h, by rw [Request.wish, hcmd]; simp only [hreq]; exact .keep⟩
  | some req =>
    obtain ⟨tb, sci⟩ := req
    rw [addRxsc_of_request hreq] at hstep
    cases hmem : r.env.rxScMem with
    | none =>
      rw [bind_apply, createRxSc_none hmem] at hstep
      obtain rfl : s = s' := by simpa [addRxscAt_err, Outcome.state?] using hstep
      exact ⟨l, h, by rw [Request.wish, hcmd]; simp only [hreq, hmem]; exact .keep⟩
    | some a =>
      rw [addRxsc_done hmem] at hstep
      obtain rfl : s.added a sci tb.activeFlag = s' := by simpa [Outcome.state?] using hstep
      refine ⟨_, h.added (hfresh a hmem), ?_⟩
      rw [Request.wish, hcmd]
      simp only [hreq, hmem]
      exact .add

/-- The change of the list and of the count is the one the request is for. -/
theorem change_of_step (h : Lists s l) (hstep : Step s r s') :
    ∃ l', Lists s' l' ∧ ScChange r.wish s.secy.nRxSc (scTable l) s'.secy.nRxSc (scTable l') := by
  obtain ⟨hfresh, fuel, hstep⟩ := hstep
  have hkeep {x : Call Int} (hx : Keeps tableFrame x) (hxs : (x s).state? = some s') (hwish : r.wish = .keep) :
      ∃ l', Lists s' l' ∧ ScChange r.wish s.secy.nRxSc (scTable l) s'.secy.nRxSc (scTable l') := by
    obtain ⟨hcount, hlist⟩ := hx s s' hxs
    obtain ⟨l', hl', htable⟩ := hlist l h
    exact ⟨l', hl', by rw [hwish, hcount, htable]; exact .keep⟩
  cases hcmd : r.command with
  | addRxsc => exact change_of_addRxsc h hcmd hfresh (by simpa only [Request.call, hcmd] using hstep)
  | delRxsc => exact change_of_delRxsc h hcmd (by simpa only [Request.call, hcmd] using hstep)
  | updRxsc => exact change_of_updRxsc h hcmd (by simpa only [Request.call, hcmd] using hstep)
  | addTxsa =>
    exact hkeep keeps_addTxsa (by simpa only [Request.call, hcmd] using hstep) (by simp only [Request.wish, hcmd])
  | addRxsa =>
    exact hkeep keeps_addRxsa (by simpa only [Request.call, hcmd] using hstep) (by simp only [Request.wish, hcmd])

end Gpy211Gennl
