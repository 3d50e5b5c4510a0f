import MxlUtils.Driver.RxScSearch

/- Adding an association. A call that fails before the association is in its table
   leaves the tables alone. The key length and the two GPHY calls are looked at after
   that, and their failures leave the association in the table: the number is in use
   from then on, though the call has failed. -/
namespace Gpy211Gennl
open Gpy2xx Loop Chain

variable {s s' : Driver} {a : Addr} {n : RxSc} {sci : BitVec 64} {fuel : Nat} {r : Request}
variable {attrs : Attrs} {env : Env} {tb : SaAttrs} {dev : NetDevice} {an : BitVec 8}
variable {pn : BitVec 32} {key : List (BitVec 8)}

/-- Which numbers are in use, and by what, for sending and in every receive channel. -/
def SameTables (s s' : Driver) : Prop :=
  s'.secy.txSa = s.secy.txSa ∧ ∀ a, (s'.heap a).map (·.sa) = (s.heap a).map (·.sa)

/-- If the call returns an error, the tables are as they were. -/
def AddsAtomically (s : Driver) (r : Request) : Prop :=
  ∀ fuel i c s', r.call fuel s = .exit i c s' → SameTables s s'

theorem sameTables_refl (s : Driver) : SameTables s s := ⟨rfl, fun _ => rfl⟩

/-! ## Transmit associations -/

/-- The key has the length the device is set to, and both GPHY calls succeed. -/
def TxProgrammed (s : Driver) (env : Env) (dev : NetDevice) (an : BitVec 8) (pn : BitVec 32)
    (key : List (BitVec 8)) : Prop :=
  let d := egrRecord (s.egrData.setAn an) pn dev.devAddr key dev.secy.sci
  key.length = dev.secy.keyLen.toNat ∧ 0 ≤ env.configEgrTr d.transRec ∧
    0 ≤ env.configEgrSamRule (d.setRule dev.secy.sci).samParam

/-- A request that puts its association in the table gets all the way through. -/
def TxsaWhole (s : Driver) (env : Env) (attrs : Attrs) : Prop :=
  ∀ tb dev an pn key, attrs.txsaRequest env = some (tb, dev) → tb.an = some an → tb.pn = some pn →
    tb.key = some key → s.secy.txSa (anIndex an) = none → env.saMem = true → TxProgrammed s env dev an pn key

/-- The state before the association is put in its table. -/
def Driver.txStarted (s : Driver) (dev : NetDevice) (an : BitVec 8) : Driver :=
  { s with secy := { s.secy with conf := dev.secy }, egrData := s.egrData.setAn an }

theorem addTxsa_eq (hreq : attrs.txsaRequest env = some (tb, dev)) (han : tb.an = some an) :
    addTxsa env attrs s =
      if (s.secy.txSa (anIndex an)).isSome then .exit .busy ebusy (s.txStarted dev an)
      else if env.saMem then programTxsa env tb dev an ((s.txStarted dev an).txLinked an)
      else .exit .noMemory enomem (s.txStarted dev an) := by
  rw [addTxsa_of_request hreq, addTxsaAt_eq han]
  rfl

/-- The calls of the GPHY succeed, or the association is left behind. -/
theorem programTxsa_cases (hpn : tb.pn = some pn) (hkey : tb.key = some key) :
    (TxProgrammed s env dev an pn key ∧
      ∃ s', programTxsa env tb dev an ((s.txStarted dev an).txLinked an) = .done 0 s') ∨
    (¬TxProgrammed s env dev an pn key ∧
      ∃ i c s', programTxsa env tb dev an ((s.txStarted dev an).txLinked an) = .exit i c s' ∧
        s'.secy.txSa (anIndex an) ≠ none) := by
  have heq := @programTxsa_eq ((s.txStarted dev an).txLinked an) env tb dev an pn key dev.secy
    (s.egrData.setAn an) hpn hkey rfl rfl
  by_cases hlen : key.length ≠ dev.secy.keyLen.toNat
  · rw [if_pos hlen] at heq
    exact .inr ⟨fun h => hlen h.1, _, _, _, heq, by simp [txLinked_self]⟩
  · rw [if_neg hlen] at heq
    by_cases htr : env.configEgrTr (egrRecord (s.egrData.setAn an) pn dev.devAddr key dev.secy.sci).transRec < 0
    · rw [if_pos htr] at heq
      exact .inr ⟨fun h => Int.not_lt.mpr h.2.1 htr, _, _, _, heq, by simp [txLinked_self]⟩
    · rw [if_neg htr] at heq
      by_cases hsam : env.configEgrSamRule
          ((egrRecord (s.egrData.setAn an) pn dev.devAddr key dev.secy.sci).setRule dev.secy.sci).samParam < 0
      · rw [if_pos hsam] at heq
        exact .inr ⟨fun h => Int.not_lt.mpr h.2.2 hsam, _, _, _, heq, by simp [txLinked_self]⟩
      · rw [if_neg hsam] at heq
        exact .inl ⟨⟨not_not.mp hlen, Int.not_lt.mp htr, Int.not_lt.mp hsam⟩, _, heq⟩

theorem addTxsa_atomic_iff :
    (∀ i c s', addTxsa env attrs s = .exit i c s' → SameTables s s') ↔ TxsaWhole s env attrs := by
  constructor
  · intro hatomic tb dev an pn key hreq han hpn hkey hfree hmem
    have heq : addTxsa env attrs s = programTxsa env tb dev an ((s.txStarted dev an).txLinked an) := by
      simp [addTxsa_eq hreq han, hfree, hmem]
    rcases programTxsa_cases hpn hkey with ⟨hprogrammed, -⟩ | ⟨-, i, c, s', hexit, hleft⟩
    · exact hprogrammed
    · have hsame := hatomic i c s' (heq.trans hexit)
      rw [hsame.1] at hleft
      exact (hleft hfree).elim
  · intro hwhole i c s' hexit
    cases hreq : attrs.txsaRequest env with
    | none =>
      obtain ⟨i₁, c₁, -, hnone⟩ := addTxsa_of_none (s := s) hreq
      obtain rfl : s = s' := by
        rw [hnone] at hexit
        cases hexit
        rfl
      exact sameTables_refl s
    | some req =>
      obtain ⟨tb, dev⟩ := req
      obtain ⟨an, pn, key, han, hpn, hkey⟩ := exists_of_validateAddTxsa (validate_of_txsaRequest hreq)
      rw [addTxsa_eq hreq han] at hexit
      split_ifs at hexit with hbusy hmem
      · cases hexit
        exact ⟨rfl, fun _ => rfl⟩
      · have hfree : s.secy.txSa (anIndex an) = none := by simpa using hbusy
        have hprogrammed := hwhole tb dev an pn key hreq han hpn hkey hfree hmem
        rcases programTxsa_cases hpn hkey with ⟨-, s₁, hdone⟩ | ⟨hfails, -⟩
        · rw [hdone] at hexit
          cases hexit
        · exact (hfails hprogrammed).elim
      · cases hexit
        exact ⟨rfl, fun _ => rfl⟩

/-! ## Receive associations -/

def RxProgrammed (s : Driver) (env : Env) (dev : NetDevice) (sci : BitVec 64) (an : BitVec 8) (pn : BitVec 32)
    (key : List (BitVec 8)) : Prop :=
  let d := ingRecord ((s.ingData.setSci sci).setAn an) pn dev.devAddr key
  key.length = dev.secy.keyLen.toNat ∧ 0 ≤ env.configIngTr d.transRec ∧
    0 ≤ env.configIngSamRule (d.setRule dev.secy.sci).samParam

/-- The same of a request for a channel that the search finds. -/
def RxsaWhole (s : Driver) (env : Env) (attrs : Attrs) : Prop :=
  ∀ tb dev sci a n an pn key, attrs.rxsaRequest env = some (tb, dev, sci) →
    Search s sci (.ptr (some a)) → s.heap a = some n → tb.an = some an → tb.pn = some pn →
    tb.key = some key → n.sa (anIndex an) = none → env.saMem = true →
    RxProgrammed s env dev sci an pn key

def Driver.rxStarted (s : Driver) (dev : NetDevice) (sci : BitVec 64) (an : BitVec 8) : Driver :=
  { s with secy := { s.secy with conf := dev.secy }, ingData := (s.ingData.setSci sci).setAn an }

theorem addRxsaAt_started (han : tb.an = some an) (ha : s.heap a = some n) :
    addRxsaAt env tb dev (.ptr (some a)) (s.rxConfigured dev sci) =
      if (n.sa (anIndex an)).isSome then .exit .busy ebusy (s.rxStarted dev sci an)
      else if env.saMem then programRxsa env tb dev ((s.rxStarted dev sci an).rxLinked a n an)
      else .exit .noMemory enomem (s.rxStarted dev sci an) := by
  have ha' : (s.rxConfigured dev sci).heap a = some n := ha
  rw [addRxsaAt_eq han ha']
  rfl

theorem programRxsa_cases (hpn : tb.pn = some pn) (hkey : tb.key = some key) :
    (RxProgrammed s env dev sci an pn key ∧
      ∃ s', programRxsa env tb dev ((s.rxStarted dev sci an).rxLinked a n an) = .done 0 s') ∨
    (¬RxProgrammed s env dev sci an pn key ∧
      ∃ i c s', programRxsa env tb dev ((s.rxStarted dev sci an).rxLinked a n an) = .exit i c s' ∧
        ∃ n', s'.heap a = some n' ∧ n'.sa (anIndex an) ≠ none) := by
  have heq := @programRxsa_eq ((s.rxStarted dev sci an).rxLinked a n an) env tb dev pn key dev.secy
    ((s.ingData.setSci sci).setAn an) hpn hkey rfl rfl
  by_cases hlen : key.length ≠ dev.secy.keyLen.toNat
  · rw [if_pos hlen] at heq
    exact .inr ⟨fun h => hlen h.1, _, _, _, heq, _, rxLinked_self, by simp⟩
  · rw [if_neg hlen] at heq
    by_cases htr : env.configIngTr (ingRecord ((s.ingData.setSci sci).setAn an) pn dev.devAddr key).transRec < 0
    · rw [if_pos htr] at heq
      exact .inr ⟨fun h => Int.not_lt.mpr h.2.1 htr, _, _, _, heq, _, rxLinked_self, by simp⟩
    · rw [if_neg htr] at heq
      by_cases hsam : env.configIngSamRule
          ((ingRecord ((s.ingData.setSci sci).setAn an) pn dev.devAddr key).setRule dev.secy.sci).samParam < 0
      · rw [if_pos hsam] at heq
        exact .inr ⟨fun h => Int.not_lt.mpr h.2.2 hsam, _, _, _, heq, _, rxLinked_self, by simp⟩
      · rw [if_neg hsam] at heq
        exact .inl ⟨⟨not_not.mp hlen, Int.not_lt.mp htr, Int.not_lt.mp hsam⟩, _, heq⟩

theorem addRxsaAt_exit (hvalid : validateAddRxsa tb = true) {p : ErrPtr} {i : Exit} {c : Int}
    (hexit : addRxsaAt env tb dev p (s.rxConfigured dev sci) = .exit i c s')
    (hwhole : ∀ a n an pn key, p = .ptr (some a) → s.heap a = some n → tb.an = some an → tb.pn = some pn →
      tb.key = some key → n.sa (anIndex an) = none → env.saMem = true → RxProgrammed s env dev sci an pn key) :
    SameTables s s' := by
  obtain ⟨an, key, han, hkey⟩ := exists_of_validateAddRxsa hvalid
  match p with
  | .err e =>
    cases hexit
    exact ⟨rfl, fun _ => rfl⟩
  | .ptr none =>
    rw [addRxsaAt_null] at hexit
    cases hexit
  | .ptr (some a) =>
    cases ha : s.heap a with
    | none =>
      have ha' : (s.rxConfigured dev sci).heap a = none := ha
      simp [addRxsaAt, isErr, han, modifyIng, bind_apply, deref, ha', modify] at hexit
    | some n =>
      rw [addRxsaAt_started han ha] at hexit
      split_ifs at hexit with hbusy hmem
      · cases hexit
        exact ⟨rfl, fun _ => rfl⟩
      · have hfree : n.sa (anIndex an) = none := by simpa using hbusy
        cases hpn : tb.pn with
        | none =>
          rw [programRxsa_oops hpn] at hexit
          cases hexit
        | some pn =>
          have hprogrammed := hwhole a n an pn key rfl ha han hpn hkey hfree hmem
          rcases programRxsa_cases hpn hkey with ⟨-, s₁, hdone⟩ | ⟨hfails, -⟩
          · rw [hdone] at hexit
            cases hexit
          · exact (hfails hprogrammed).elim
      · cases hexit
        exact ⟨rfl, fun _ => rfl⟩

theorem addRxsa_atomic_iff :
    (∀ fuel i c s', addRxsa fuel env attrs s = .exit i c s' → SameTables s s') ↔ RxsaWhole s env attrs := by
  constructor
  · intro hatomic tb dev sci a n an pn key hreq hsearch ha han hpn hkey hfree hmem
    have hsearch' : Search (s.rxConfigured dev sci) sci (.ptr (some a)) := (search_congr rfl rfl).mpr hsearch
    obtain ⟨fuel, hfuel⟩ := ((settles_find hsearch').bind (addRxsaAt env tb dev)).enough
    have heq : addRxsa fuel env attrs s =
        programRxsa env tb dev ((s.rxStarted dev sci an).rxLinked a n an) := by
      rw [addRxsa_of_request hreq, hfuel, Outcome.bind, addRxsaAt_started han ha]
      simp [hfree, hmem]
    rcases @programRxsa_cases s a n sci env tb dev an pn key hpn hkey with
      ⟨hprogrammed, -⟩ | ⟨-, i, c, s', hexit, n', hn', hleft⟩
    · exact hprogrammed
    · have hsame := (hatomic fuel i c s' (heq.trans hexit)).2 a
      rw [hn', ha] at hsame
      have hsa : n'.sa = n.sa := Option.some.inj hsame
      rw [hsa] at hleft
      exact (hleft hfree).elim
  · intro hwhole fuel i c s' hexit
    cases hreq : attrs.rxsaRequest env with
    | none =>
      obtain ⟨i₁, c₁, conf, -, hnone⟩ := addRxsa_of_none (s := s) fuel hreq
      rw [hnone] at hexit
      cases hexit
      exact ⟨rfl, fun _ => rfl⟩
    | some req =>
      obtain ⟨tb, dev, sci⟩ := req
      rw [addRxsa_of_request hreq] at hexit
      rcases @find_bind_cases Int (s.rxConfigured dev sci) sci fuel (addRxsaAt env tb dev) with
        ⟨p, hp, heq⟩ | hoops | hspins
      · rw [heq] at hexit
        have hp' : Search s sci p := (search_congr rfl rfl).mp hp
        refine addRxsaAt_exit (validate_of_rxsaRequest hreq) hexit fun a n an pn key hpa => ?_
        exact hwhole tb dev sci a n an pn key hreq (hpa ▸ hp')
      · rw [hoops] at hexit
        cases hexit
      · rw [hspins] at hexit
        cases hexit

/-- An error of an add leaves the tables alone if and only if the request either does not get as
far as its table or gets all the way through. -/
theorem addSa_atomic_iff (hcmd : r.command = .addTxsa ∨ r.command = .addRxsa) :
    AddsAtomically s r ↔
      if r.command = .addTxsa then TxsaWhole s r.env r.attrs else RxsaWhole s r.env r.attrs := by
  rcases hcmd with hcmd | hcmd
  · rw [if_pos hcmd, ← addTxsa_atomic_iff]
    simp only [AddsAtomically, Request.call, hcmd]
    exact ⟨fun h => h 0, fun h _ => h⟩
  · rw [if_neg (by simp [hcmd]), ← addRxsa_atomic_iff]
    simp only [AddsAtomically, Request.call, hcmd]

/-- A message to add a transmit association 0 with a key of so many bytes, to a device set to 16. -/
def addTxsaOfLength (n : Nat) : Request where
  command := .addTxsa
  attrs := ⟨some 1, none, some (some ⟨some 0, none, some 1, some (List.replicate 16 0), some (List.replicate n 0)⟩)⟩
  env := ⟨fun _ => some ⟨true, fun _ => 0, blankConf⟩, none, true, fun _ => 0, fun _ => 0, fun _ => 0, fun _ => 0⟩

theorem addsAtomically_addTxsa : AddsAtomically emptyDriver (addTxsaOfLength 16) ↔
    if (addTxsaOfLength 16).command = .addTxsa then
      TxsaWhole emptyDriver (addTxsaOfLength 16).env (addTxsaOfLength 16).attrs
    else RxsaWhole emptyDriver (addTxsaOfLength 16).env (addTxsaOfLength 16).attrs :=
  addSa_atomic_iff (.inl rfl)

/-- A key of the wrong length is refused with the association in the table. -/
theorem not_addsAtomically_keyLength :
    ¬∀ s r, r.command = .addTxsa ∨ r.command = .addRxsa → AddsAtomically s r := by
  intro hclaim
  have hatomic := hclaim emptyDriver (addTxsaOfLength 8) (.inl rfl)
  have hwhole := (addTxsa_atomic_iff).mp fun i c s' hexit => hatomic 0 i c s' hexit
  have hprogrammed := hwhole _ _ 0 1 (List.replicate 8 0) rfl rfl rfl rfl rfl rfl
  exact absurd hprogrammed.1 (by decide)

end Gpy211Gennl
