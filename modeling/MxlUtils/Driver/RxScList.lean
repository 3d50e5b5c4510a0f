import MxlUtils.Driver.Gennl

/- The list of receive channels. `Lists s l` says that the links of the heap pass the
   nodes of `l`, in this order and no others. Each command keeps such a list: it adds a
   node in front, changes one in place, takes one out, or leaves the list alone. The
   search reaches the first two nodes only, because it steps from the head each time. -/
namespace Gpy211Gennl
open Loop Chain

variable {α β : Type} {s s' : Driver} {l l₁ l₂ : List (Addr × RxSc)} {a b : Addr} {n m : RxSc}
variable {sci : BitVec 64} {fuel : Nat}

/-- The nodes of the list, with what is stored there. -/
structure Lists (s : Driver) (l : List (Addr × RxSc)) : Prop where
  chain : IsChain s.next s.secy.rxSc (l.map Prod.fst)
  nodes : ∀ x ∈ l, s.heap x.1 = some x.2

namespace Lists

/-- The list is stored in the heap and its head, and nowhere else. -/
theorem congr (h : Lists s l) (hheap : s'.heap = s.heap) (hhead : s'.secy.rxSc = s.secy.rxSc) : Lists s' l := by
  have hnext : s'.next = s.next := by
    funext a
    rw [Driver.next, Driver.next, hheap]
  exact ⟨by rw [hnext, hhead]; exact h.chain, fun x hx => by rw [hheap]; exact h.nodes x hx⟩

theorem next_eq (h : Lists s l) {x : Addr × RxSc} (hx : x ∈ l) : s.next x.1 = x.2.next := by
  rw [Driver.next, h.nodes x hx, Option.bind_some]

theorem nodup (h : Lists s l) : (l.map Prod.fst).Nodup := nodup_of_isChain h.chain

/-- The nodes are what the heap holds at their addresses. -/
theorem eq_filterMap (h : Lists s l) :
    l = (l.map Prod.fst).filterMap fun a => (s.heap a).map (Prod.mk a) := by
  have hnodes : ∀ x ∈ l, (s.heap x.1).map (Prod.mk x.1) = some x := by
    intro x hx
    rw [h.nodes x hx, Option.map_some]
  rw [List.filterMap_map]
  calc l = l.filterMap some := List.filterMap_some.symm
    _ = _ := (List.filterMap_congr hnodes).symm

theorem unique (h : Lists s l) (h' : Lists s l₁) : l = l₁ := by
  rw [h.eq_filterMap, h'.eq_filterMap, isChain_unique h.chain h'.chain]

/-- The other nodes are at other addresses. -/
theorem ne_of_mem (h : Lists s (l₁ ++ (a, n) :: l₂)) {x : Addr × RxSc} (hx : x ∈ l₁ ++ l₂) : x.1 ≠ a := by
  have hnodup : a ∉ (l₁ ++ l₂).map Prod.fst := by
    have hperm : (l₁ ++ (a, n) :: l₂).Perm ((a, n) :: (l₁ ++ l₂)) := List.perm_middle
    exact (List.nodup_cons.mp ((hperm.map Prod.fst).nodup_iff.mp h.nodup)).1
  rintro rfl
  exact hnodup (List.mem_map_of_mem hx)

/-- A node written in place, its link kept. -/
theorem set (h : Lists s (l₁ ++ (a, n) :: l₂)) (hnext : m.next = n.next)
    (hheap : s'.heap = Function.update s.heap a (some m)) (hhead : s'.secy.rxSc = s.secy.rxSc) :
    Lists s' (l₁ ++ (a, m) :: l₂) := by
  have ha : s.heap a = some n := h.nodes (a, n) (by simp)
  have hlinks : s'.next = s.next := by
    funext b
    by_cases hb : b = a
    · subst hb
      simp [Driver.next, hheap, ha, hnext]
    · simp [Driver.next, hheap, hb]
  constructor
  · rw [hlinks, hhead]
    simpa using h.chain
  · intro x hx
    rcases List.mem_cons.mp (List.perm_middle.mem_iff.mp hx) with rfl | hx
    · rw [hheap, Function.update_self]
    · rw [hheap, Function.update_of_ne (h.ne_of_mem hx)]
      exact h.nodes x (List.perm_middle.mem_iff.mpr (List.mem_cons_of_mem _ hx))

/-- A node of new memory in front. -/
theorem push (h : Lists s l) (hfresh : s.heap a = none) (hnext : n.next = s.secy.rxSc)
    (hheap : s'.heap = Function.update s.heap a (some n)) (hhead : s'.secy.rxSc = some a) :
    Lists s' ((a, n) :: l) := by
  have hnew : ∀ x ∈ l, x.1 ≠ a := by
    intro x hx hxa
    have hheap := h.nodes x hx
    rw [hxa, hfresh] at hheap
    simp at hheap
  have hlinks : s'.next = Function.update s.next a s.secy.rxSc := by
    funext b
    by_cases hb : b = a
    · subst hb
      simp [Driver.next, hheap, hnext]
    · simp [Driver.next, hheap, hb]
  constructor
  · rw [hlinks, hhead]
    refine isChain_push h.chain fun ha => ?_
    obtain ⟨x, hx, hxa⟩ := List.mem_map.mp ha
    exact hnew x hx hxa
  · intro x hx
    rcases List.mem_cons.mp hx with rfl | hx
    · rw [hheap, Function.update_self]
    · rw [hheap, Function.update_of_ne (hnew x hx)]
      exact h.nodes x hx

/-- The node in front taken out. -/
theorem unlink_head (h : Lists s ((a, n) :: l)) :
    Lists (s.setSlot n.next .head) l := by
  constructor
  · have hchain : IsChain s.next (s.next a) (l.map Prod.fst) := h.chain.2
    rw [h.next_eq (x := (a, n)) List.mem_cons_self] at hchain
    exact hchain
  · exact fun x hx => h.nodes x (List.mem_cons_of_mem _ hx)

/-- The node behind `b` taken out. -/
theorem unlink (h : Lists s (l₁ ++ (b, m) :: (a, n) :: l₂)) :
    Lists (s.setSlot n.next (.next b)) (l₁ ++ (b, { m with next := n.next }) :: l₂) := by
  have hb : s.heap b = some m := h.nodes (b, m) (by simp)
  have hnext : s.next a = n.next := h.next_eq (x := (a, n)) (by simp)
  have hheap : (s.setSlot n.next (.next b)).heap =
      Function.update s.heap b (some { m with next := n.next }) := by
    rw [Driver.setSlot, hb, Option.map_some]
  have hlinks : (s.setSlot n.next (.next b)).next = Function.update s.next b n.next := by
    funext c
    by_cases hc : c = b
    · subst hc
      simp [Driver.next, hheap]
    · simp [Driver.next, hheap, hc]
  constructor
  · rw [hlinks, ← hnext]
    have hchain := h.chain
    simp only [List.map_append, List.map_cons] at hchain ⊢
    exact isChain_unlink hchain
  · intro x hx
    rcases List.mem_cons.mp (List.perm_middle.mem_iff.mp hx) with rfl | hx
    · rw [hheap, Function.update_self]
    · have hx : x ∈ l₁ ++ (a, n) :: l₂ :=
        List.perm_middle.mem_iff.mpr (List.mem_cons_of_mem _ hx)
      rw [hheap, Function.update_of_ne (h.ne_of_mem hx)]
      exact h.nodes x (List.perm_middle.mem_iff.mpr (List.mem_cons_of_mem _ hx))

/-- Memory outside written or given back. -/
theorem outside (h : Lists s l) {v : Option RxSc} (ha : ∀ x ∈ l, x.1 ≠ a)
    (hheap : s'.heap = Function.update s.heap a v) (hhead : s'.secy.rxSc = s.secy.rxSc) : Lists s' l := by
  have hlinks : ∀ c ∈ l.map Prod.fst, s.next c = s'.next c := by
    intro c hc
    obtain ⟨x, hx, rfl⟩ := List.mem_map.mp hc
    rw [Driver.next, Driver.next, hheap, Function.update_of_ne (ha x hx)]
  constructor
  · rw [hhead]
    exact (segment_congr hlinks).mp h.chain
  · intro x hx
    rw [hheap, Function.update_of_ne (ha x hx)]
    exact h.nodes x hx

end Lists

/-! ## The search -/

/-- The search for `sci` ends, and `p` is its result. -/
def Search (s : Driver) (sci : BitVec 64) (p : ErrPtr) : Prop :=
  Ends (findBody sci s) s.secy.rxSc (some p)

/-- The search reads the heap and the head of the list. -/
theorem search_congr {p : ErrPtr} (hheap : s'.heap = s.heap) (hhead : s'.secy.rxSc = s.secy.rxSc) :
    Search s' sci p ↔ Search s sci p := by
  have hbody : findBody sci s' = findBody sci s := by
    funext p
    cases p with
    | none => rfl
    | some a => rw [findBody, findBody, hheap, hhead]
  rw [Search, Search, hbody, hhead]

/-- The first node with `sci` among those the search reaches. -/
def reached (sci : BitVec 64) (l : List (Addr × RxSc)) : Option (Addr × RxSc) :=
  (l.take 2).find? (·.2.sci = sci)

theorem findBody_hit (ha : s.heap a = some n) (hsci : n.sci = sci) :
    findBody sci s (some a) = .inr (some (.ptr (some a))) := by
  simp [findBody, ha, hsci]

theorem findBody_miss (ha : s.heap a = some n) (hsci : n.sci ≠ sci) (hb : s.secy.rxSc = some b)
    (hm : s.heap b = some m) : findBody sci s (some a) = .inl m.next := by
  simp [findBody, ha, hsci, hb, hm]

theorem search_of_reached {x : Addr × RxSc} (h : Lists s l) (hx : reached sci l = some x) :
    Search s sci (.ptr (some x.1)) := by
  cases l with
  | nil => simp [reached] at hx
  | cons y l =>
    have hhead : s.secy.rxSc = some y.1 := h.chain.1
    have hy : s.heap y.1 = some y.2 := h.nodes y List.mem_cons_self
    by_cases hsci : y.2.sci = sci
    · simp [reached, hsci] at hx
      rw [Search, hhead, ← hx]
      exact ends_inr (findBody_hit hy hsci)
    · cases l with
      | nil => simp [reached, hsci] at hx
      | cons z l =>
        have hz : s.heap z.1 = some z.2 := h.nodes z (by simp)
        have hnext : y.2.next = some z.1 := (h.next_eq List.mem_cons_self).symm.trans h.chain.2.1
        have hzsci : z.2.sci = sci ∧ z = x := by simpa [reached, hsci] using hx
        rw [Search, hhead]
        refine ends_inl (findBody_miss hy hsci hhead hy) ?_
        rw [hnext, ← hzsci.2]
        exact ends_inr (findBody_hit hz hzsci.1)

theorem search_of_short (h : Lists s l) (hlen : l.length ≤ 1) (hnone : reached sci l = none) :
    Search s sci (.ptr none) := by
  cases l with
  | nil =>
    rw [Search, show s.secy.rxSc = none from h.chain]
    exact ends_inr rfl
  | cons y l =>
    obtain rfl : l = [] := by simpa using hlen
    have hhead : s.secy.rxSc = some y.1 := h.chain.1
    have hy : s.heap y.1 = some y.2 := h.nodes y List.mem_cons_self
    have hnext : y.2.next = none := (h.next_eq List.mem_cons_self).symm.trans h.chain.2
    have hsci : y.2.sci ≠ sci := by simpa [reached] using hnone
    rw [Search, hhead]
    refine ends_inl (findBody_miss hy hsci hhead hy) ?_
    rw [hnext]
    exact ends_inr rfl

/-- Behind the second node the search goes round: the step leads to the second node again. -/
theorem search_spins (h : Lists s l) (hlen : 2 ≤ l.length) (hnone : reached sci l = none) :
    Spins (findBody sci s) s.secy.rxSc := by
  match l, hlen with
  | y :: z :: l, _ =>
    have hhead : s.secy.rxSc = some y.1 := h.chain.1
    have hy : s.heap y.1 = some y.2 := h.nodes y List.mem_cons_self
    have hz : s.heap z.1 = some z.2 := h.nodes z (by simp)
    have hnext : y.2.next = some z.1 := (h.next_eq List.mem_cons_self).symm.trans h.chain.2.1
    have hsci : y.2.sci ≠ sci ∧ z.2.sci ≠ sci := by simpa [reached] using hnone
    have hround : ∀ p, p = some z.1 → ∃ p', findBody sci s p = .inl p' ∧ p' = some z.1 := by
      rintro p rfl
      exact ⟨_, findBody_miss hz hsci.2 hhead hy, hnext⟩
    rw [hhead]
    exact spins_inl (findBody_miss hy hsci.1 hhead hy) (spins_of_inv hround hnext)

/-- What the search finds: a node among the first two, or nothing in a list of at most one. -/
theorem search_cases {p : ErrPtr} (h : Lists s l) (hs : Search s sci p) :
    (∃ x, reached sci l = some x ∧ p = .ptr (some x.1)) ∨
    l.length ≤ 1 ∧ reached sci l = none ∧ p = .ptr none := by
  cases hx : reached sci l with
  | some x =>
    have heq := hs.unique (search_of_reached h hx)
    exact .inl ⟨x, rfl, Option.some.inj heq⟩
  | none =>
    by_cases hlen : l.length ≤ 1
    · have heq := hs.unique (search_of_short h hlen hx)
      exact .inr ⟨hlen, rfl, Option.some.inj heq⟩
    · exact (not_ends_of_spins (search_spins h (by omega) hx) hs).elim

/-! ## The loop of the deletion -/

theorem delBody_hit {slot : Slot} (ha : s.heap a = some n) (hsci : n.sci = sci) :
    delBody sci s (slot, some a) = .inr (some (some (slot, a))) := by
  simp [delBody, ha, hsci]

theorem delBody_miss {slot : Slot} (ha : s.heap a = some n) (hsci : n.sci ≠ sci) :
    delBody sci s (slot, some a) = .inl (.next a, n.next) := by
  simp [delBody, ha, hsci]

/-- The slot through which the loop gets behind the nodes of `l`. -/
def slotAfter (slot : Slot) (l : List (Addr × RxSc)) : Slot := (l.getLast?).elim slot (.next ·.1)

/-- Nodes without the SCI are passed. -/
theorem delLoop_pass {slot : Slot} {p q : Option Addr} {r : Option (Option (Slot × Addr))}
    (hchain : Segment s.next p (l.map Prod.fst) q) (hnodes : ∀ x ∈ l, s.heap x.1 = some x.2)
    (hsci : ∀ x ∈ l, x.2.sci ≠ sci) (hrest : Ends (delBody sci s) (slotAfter slot l, q) r) :
    Ends (delBody sci s) (slot, p) r := by
  induction l generalizing slot p with
  | nil =>
    rw [show p = q from hchain]
    exact hrest
  | cons x l ih =>
    obtain ⟨rfl, hchain⟩ := hchain
    have hx := hnodes x List.mem_cons_self
    refine ends_inl (delBody_miss hx (hsci x List.mem_cons_self)) ?_
    rw [Driver.next, hx, Option.bind_some] at hchain
    refine ih hchain (fun y hy => hnodes y (List.mem_cons_of_mem _ hy))
      (fun y hy => hsci y (List.mem_cons_of_mem _ hy)) ?_
    have hslot : slotAfter (.next x.1) l = slotAfter slot (x :: l) := by
      cases l with
      | nil => rfl
      | cons y l => rw [slotAfter, slotAfter, List.getLast?_cons_cons, List.getLast?_cons]; rfl
    rw [hslot]
    exact hrest

/-! ## Outcomes -/

def Outcome.bind (o : Outcome α) (f : α → Call β) : Outcome β :=
  match o with
  | .done a s => f a s
  | .exit i c s => .exit i c s
  | .oops => .oops
  | .spins => .spins

/-- With enough rounds `x` comes out as `o`, with fewer it spins. -/
structure Settles (x : Nat → Call α) (s : Driver) (o : Outcome α) : Prop where
  enough : ∃ fuel, x fuel s = o
  fewer : ∀ fuel, x fuel s = .spins ∨ x fuel s = o

theorem Settles.unique {x : Nat → Call α} {o : Outcome α} (h : Settles x s o) (ho : x fuel s ≠ .spins) :
    x fuel s = o := (h.fewer fuel).resolve_left ho

theorem Settles.bind {x : Nat → Call α} {o : Outcome α} (h : Settles x s o) (f : α → Call β) :
    Settles (fun fuel => x fuel >>= f) s (o.bind f) := by
  constructor
  · obtain ⟨fuel, hfuel⟩ := h.enough
    exact ⟨fuel, by rw [← hfuel]; rfl⟩
  · intro fuel
    rcases h.fewer fuel with hspins | ho
    · exact .inl (by rw [bind_apply, hspins])
    · exact .inr (by rw [← ho]; rfl)

theorem settles_const (x : Call α) (s : Driver) : Settles (fun _ => x) s (x s) := ⟨⟨0, rfl⟩, fun _ => .inr rfl⟩

theorem settles_loop {σ : Type} (body : Driver → σ → σ ⊕ Option β) (init : Driver → σ) {r : β}
    (h : Ends (body s) (init s) (some r)) : Settles (fun fuel => loop fuel body init) s (.done r s) := by
  obtain ⟨n, hn⟩ := h
  constructor
  · exact ⟨n, by rw [loop, hn]⟩
  · intro fuel
    cases hrun : Loop.run (body s) fuel (init s) with
    | none => exact .inl (by rw [loop, hrun])
    | some r' =>
      have heq : r' = some r := Ends.unique ⟨fuel, hrun⟩ ⟨n, hn⟩
      exact .inr (by rw [loop, hrun, heq])

theorem settles_find {p : ErrPtr} (h : Search s sci p) :
    Settles (fun fuel => findRxScRtnl fuel sci) s (.done p s) := settles_loop _ _ h

theorem find_spins (h : Spins (findBody sci s) s.secy.rxSc) : findRxScRtnl fuel sci s = .spins := by
  rw [findRxScRtnl, loop, h fuel]

/-- What `gpy211_del_rx_sc` does at a node. -/
def Driver.unlinked (s : Driver) (n : RxSc) (slot : Slot) : Driver :=
  (if n.active then { s with secy := { s.secy with nRxSc := s.secy.nRxSc - 1 } } else s).setSlot n.next slot

theorem settles_delRxSc_absent (h : Lists s l) (hsci : ∀ x ∈ l, x.2.sci ≠ sci) :
    Settles (fun fuel => delRxSc fuel sci) s (.done (.ptr none) s) := by
  have hend : Ends (delBody sci s) (.head, s.secy.rxSc) (some none) :=
    delLoop_pass h.chain h.nodes hsci (ends_inr rfl)
  exact (settles_loop (delBody sci) (fun s => (.head, s.secy.rxSc)) hend).bind delRxScAt

theorem settles_delRxSc (h : Lists s (l₁ ++ (a, n) :: l₂)) (hfirst : ∀ x ∈ l₁, x.2.sci ≠ sci) (hn : n.sci = sci) :
    Settles (fun fuel => delRxSc fuel sci) s (.done (.ptr (some a)) (s.unlinked n (slotAfter .head l₁))) := by
  have ha : s.heap a = some n := h.nodes (a, n) (by simp)
  have hchain := h.chain
  rw [List.map_append] at hchain
  obtain ⟨q, h₁, rfl, -⟩ := (segment_append).mp hchain
  have hnodes : ∀ x ∈ l₁, s.heap x.1 = some x.2 := fun x hx => h.nodes x (List.mem_append_left _ hx)
  have hend : Ends (delBody sci s) (.head, s.secy.rxSc) (some (some (slotAfter .head l₁, a))) :=
    delLoop_pass h₁ hnodes hfirst (ends_inr (delBody_hit ha hn))
  have hout : Outcome.bind (.done (some (slotAfter .head l₁, a)) s) delRxScAt =
      .done (.ptr (some a)) (s.unlinked n (slotAfter .head l₁)) := by
    cases hactive : n.active <;>
      simp [Outcome.bind, delRxScAt, bind_apply, deref, ha, hactive, modify, Driver.unlinked]
  rw [← hout]
  exact (settles_loop (delBody sci) (fun s => (.head, s.secy.rxSc)) hend).bind delRxScAt

end Gpy211Gennl
