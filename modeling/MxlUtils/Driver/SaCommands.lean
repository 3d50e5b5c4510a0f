import MxlUtils.Driver.RxScList

/- The commands that add an association, in three parts: the checks of the request,
   the association put in its table, and the calls of the GPHY. What each part leaves
   alone is a frame: a relation of states that is reflexive, transitive and kept by
   every change of the configuration, so it is proved part by part. -/
namespace Gpy211Gennl
open Gpy2xx Loop Chain

variable {α β : Type} {s s' : Driver} {a : Addr} {n : RxSc} {sci : BitVec 64} {fuel : Nat}
variable {attrs : Attrs} {env : Env} {tb : SaAttrs} {dev : NetDevice} {an : BitVec 8}

/-! ## Frames -/

structure Frame where
  rel : Driver → Driver → Prop
  refl : ∀ s, rel s s
  trans : ∀ {s s' s''}, rel s s' → rel s' s'' → rel s s''
  config : ∀ s conf ing egr,
    rel s { s with secy := { s.secy with conf := conf }, ingData := ing, egrData := egr }

/-- Whenever `x` returns, the state it leaves is related to the one before. -/
def Keeps (F : Frame) (x : Call α) : Prop := ∀ s s', (x s).state? = some s' → F.rel s s'

variable {F : Frame}

theorem keeps_pure (x : α) : Keeps F (pure x : Call α) := by
  rintro s s' ⟨⟩
  exact F.refl s

theorem keeps_exit (i : Exit) (c : Int) : Keeps F (exit i c : Call α) := by
  rintro s s' ⟨⟩
  exact F.refl s

theorem keeps_require (c : Bool) (i : Exit) (e : Int) : Keeps F (require c i e) := by
  cases c
  · exact keeps_exit i e
  · exact keeps_pure ()

theorem keeps_nlaGet (o : Option α) : Keeps F (nlaGet o) := by
  cases o with
  | none => intro s s' h; cases h
  | some x => exact keeps_pure x

theorem keeps_get : Keeps F get := by
  rintro s s' ⟨⟩
  exact F.refl s

theorem keeps_deref (p : ErrPtr) : Keeps F (deref p) := by
  intro s s' h
  match p with
  | .err _ => cases h
  | .ptr none => cases h
  | .ptr (some a) =>
    cases ha : s.heap a with
    | none => simp [deref, ha, Outcome.state?] at h
    | some n =>
      obtain rfl : s = s' := by simpa [deref, ha, Outcome.state?] using h
      exact F.refl s

theorem keeps_modifyEgr (f : MacsecData → MacsecData) : Keeps F (modifyEgr f) := by
  rintro s s' ⟨⟩
  exact F.config s s.secy.conf s.ingData (f s.egrData)

theorem keeps_modifyIng (f : MacsecData → MacsecData) : Keeps F (modifyIng f) := by
  rintro s s' ⟨⟩
  exact F.config s s.secy.conf (f s.ingData) s.egrData

theorem keeps_bind {x : Call α} {f : α → Call β} (hx : Keeps F x) (hf : ∀ a, Keeps F (f a)) :
    Keeps F (x >>= f) := by
  intro s s' h
  rw [bind_apply] at h
  cases hxs : x s with
  | done a s₁ =>
    rw [hxs] at h
    exact F.trans (hx s s₁ (by rw [hxs]; rfl)) (hf a s₁ s' h)
  | exit i c s₁ =>
    rw [hxs] at h
    exact hx s s' (by rw [hxs]; exact h)
  | oops => rw [hxs] at h; cases h
  | spins => rw [hxs] at h; cases h

/-! ## The calls of the GPHY -/

theorem keeps_programRxsa : Keeps F (programRxsa env tb dev) := by
  refine keeps_bind (keeps_nlaGet _) fun pn => ?_
  refine keeps_bind (keeps_modifyIng _) fun _ => ?_
  refine keeps_bind (keeps_nlaGet _) fun key => ?_
  refine keeps_bind keeps_get fun s => ?_
  refine keeps_bind (keeps_require _ _ _) fun _ => ?_
  refine keeps_bind (keeps_modifyIng _) fun _ => ?_
  refine keeps_bind (keeps_modifyIng _) fun _ => ?_
  refine keeps_bind keeps_get fun s => ?_
  refine keeps_bind (keeps_require _ _ _) fun _ => ?_
  refine keeps_bind (keeps_modifyIng _) fun _ => ?_
  refine keeps_bind keeps_get fun s => ?_
  exact keeps_bind (keeps_require _ _ _) fun _ => keeps_pure 0

/-- Only the key of the association itself is written to its table. -/
theorem keeps_programTxsa (hset : ∀ sa, Keeps F (setTxSa an sa)) : Keeps F (programTxsa env tb dev an) := by
  refine keeps_bind (keeps_nlaGet _) fun pn => ?_
  refine keeps_bind (keeps_modifyEgr _) fun _ => ?_
  refine keeps_bind (keeps_nlaGet _) fun key => ?_
  refine keeps_bind keeps_get fun s => ?_
  refine keeps_bind (keeps_require _ _ _) fun _ => ?_
  refine keeps_bind (hset _) fun _ => ?_
  refine keeps_bind (keeps_modifyEgr _) fun _ => ?_
  refine keeps_bind (keeps_modifyEgr _) fun _ => ?_
  refine keeps_bind (keeps_modifyEgr _) fun _ => ?_
  refine keeps_bind keeps_get fun s => ?_
  refine keeps_bind (keeps_require _ _ _) fun _ => ?_
  refine keeps_bind (keeps_modifyEgr _) fun _ => ?_
  refine keeps_bind keeps_get fun s => ?_
  exact keeps_bind (keeps_require _ _ _) fun _ => keeps_pure 0

/-- The parameters of the ingress calls, once the record is filled in. -/
def ingRecord (d : MacsecData) (pn : BitVec 32) (mac : Bytes 6) (key : List (BitVec 8)) : MacsecData :=
  ((d.setPn pn mac).setKey key).setRecord

/-- The parameters of the egress calls, once the record is filled in. -/
def egrRecord (d : MacsecData) (pn : BitVec 32) (mac : Bytes 6) (key : List (BitVec 8)) (sci : BitVec 64) :
    MacsecData := (((d.setPn pn mac).setKey key).setSci sci).setRecord

theorem programRxsa_oops (hpn : tb.pn = none) : programRxsa env tb dev s = .oops := by
  rw [programRxsa, hpn]
  rfl

/-- A key length other than the configured one, then either call, may end it early. -/
theorem programRxsa_eq {pn : BitVec 32} {key : List (BitVec 8)} {conf : SecyConf} {d₀ : MacsecData}
    (hpn : tb.pn = some pn) (hkey : tb.key = some key) (hconf : s.secy.conf = conf) (hdata : s.ingData = d₀) :
    programRxsa env tb dev s =
      let d := ingRecord d₀ pn dev.devAddr key
      if key.length ≠ conf.keyLen.toNat then
        .exit .keyLength einval { s with ingData := d₀.setPn pn dev.devAddr }
      else if env.configIngTr d.transRec < 0 then .exit .transformRecord (-1) { s with ingData := d }
      else if env.configIngSamRule (d.setRule conf.sci).samParam < 0 then
        .exit .samRule (-1) { s with ingData := d.setRule conf.sci }
      else .done 0 { s with ingData := d.setRule conf.sci } := by
  subst hconf hdata
  simp only [programRxsa, hpn, hkey, nlaGet_some, call_pure_bind, modifyIng, modify_bind, get_bind, ingRecord]
  by_cases hlen : key.length = s.secy.conf.keyLen.toNat
  · by_cases htr : 0 ≤ env.configIngTr (((s.ingData.setPn pn dev.devAddr).setKey key).setRecord).transRec
    · by_cases hsam : 0 ≤ env.configIngSamRule
          ((((s.ingData.setPn pn dev.devAddr).setKey key).setRecord).setRule s.secy.conf.sci).samParam
      · simp [hlen, htr, hsam, Int.not_lt.mpr htr, Int.not_lt.mpr hsam]
      · simp [hlen, htr, hsam, Int.not_lt.mpr htr, Int.not_le.mp hsam]
    · simp [hlen, htr, Int.not_le.mp htr]
  · simp [hlen]

theorem programTxsa_eq {pn : BitVec 32} {key : List (BitVec 8)} {conf : SecyConf} {d₀ : MacsecData}
    (hpn : tb.pn = some pn) (hkey : tb.key = some key) (hconf : s.secy.conf = conf) (hdata : s.egrData = d₀) :
    programTxsa env tb dev an s =
      let d := egrRecord d₀ pn dev.devAddr key conf.sci
      let s₁ : Driver := { s with secy := { s.secy with
        txSa := Function.update s.secy.txSa (anIndex an) (some ⟨copyKey key fun _ => 0⟩) } }
      if key.length ≠ conf.keyLen.toNat then
        .exit .keyLength einval { s with egrData := d₀.setPn pn dev.devAddr }
      else if env.configEgrTr d.transRec < 0 then .exit .transformRecord (-1) { s₁ with egrData := d }
      else if env.configEgrSamRule (d.setRule conf.sci).samParam < 0 then
        .exit .samRule (-1) { s₁ with egrData := d.setRule conf.sci }
      else .done 0 { s₁ with egrData := d.setRule conf.sci } := by
  subst hconf hdata
  simp only [programTxsa, hpn, hkey, nlaGet_some, call_pure_bind, modifyEgr, modify_bind, get_bind, egrRecord,
    setTxSa]
  by_cases hlen : key.length = s.secy.conf.keyLen.toNat
  · by_cases htr : 0 ≤ env.configEgrTr
        ((((s.egrData.setPn pn dev.devAddr).setKey key).setSci s.secy.conf.sci).setRecord).transRec
    · by_cases hsam : 0 ≤ env.configEgrSamRule (((((s.egrData.setPn pn dev.devAddr).setKey key).setSci
          s.secy.conf.sci).setRecord).setRule s.secy.conf.sci).samParam
      · simp [hlen, htr, hsam, Int.not_lt.mpr htr, Int.not_lt.mpr hsam]
      · simp [hlen, htr, hsam, Int.not_lt.mpr htr, Int.not_le.mp hsam]
    · simp [hlen, htr, Int.not_le.mp htr]
  · simp [hlen]

/-! ## The checks of a request -/

/-- The device of a message and its attributes, if `gpy211_add_txsa` accepts them. -/
def Attrs.txsaRequest (env : Env) (attrs : Attrs) : Option (SaAttrs × NetDevice) :=
  attrs.ifindex.bind fun ifindex => attrs.saConfig.join.bind fun tb =>
    if validateAddTxsa tb then
      (env.devByIndex ifindex).bind fun dev => if dev.isMacsec then some (tb, dev) else none
    else none

/-- What `gpy211_add_rxsa` looks at before the search. -/
def Attrs.rxsaRequest (env : Env) (attrs : Attrs) : Option (SaAttrs × NetDevice × BitVec 64) :=
  attrs.ifindex.bind fun ifindex => attrs.saConfig.join.bind fun tb => attrs.rxscConfig.join.bind fun tbRxsc =>
    if validateAddRxsa tb then
      (env.devByIndex ifindex).bind fun dev =>
        if dev.isMacsec then tbRxsc.sci.map fun sci => (tb, dev, sci) else none
    else none

/-- `gpy211_add_txsa` after the checks. -/
def addTxsaAt (env : Env) (tb : SaAttrs) (dev : NetDevice) : Call Int := do
  let an ← nlaGet tb.an
  modifyEgr (.setAn an)
  let s ← get
  require (s.secy.txSa (anIndex an)).isNone .busy ebusy
  require env.saMem .noMemory enomem
  setTxSa an ⟨fun _ => 0⟩
  programTxsa env tb dev an

/-- The configuration of the device taken over. -/
def Driver.configured (s : Driver) (dev : NetDevice) : Driver :=
  { s with secy := { s.secy with conf := dev.secy } }

/-- The configuration taken over, and the SCI of the message in the ingress parameters. -/
def Driver.rxConfigured (s : Driver) (dev : NetDevice) (sci : BitVec 64) : Driver :=
  { s with secy := { s.secy with conf := dev.secy }, ingData := s.ingData.setSci sci }

theorem addTxsa_of_request (h : attrs.txsaRequest env = some (tb, dev)) :
    addTxsa env attrs s = addTxsaAt env tb dev (s.configured dev) := by
  obtain ⟨_ | ifindex, rxscConfig, _ | _ | tb'⟩ := attrs <;>
    simp [Attrs.txsaRequest, Option.bind_eq_some_iff] at h
  obtain ⟨hvalid, hdev, hmacsec, rfl⟩ := h
  simp [addTxsa, parseSaConfig, hvalid, getDevFromNl, hdev, hmacsec, copyDevSecyData]
  rfl

theorem addTxsa_of_none (h : attrs.txsaRequest env = none) : ∃ i c, i ≠ .notFound ∧
    addTxsa env attrs s = .exit i c s := by
  obtain ⟨_ | ifindex, rxscConfig, _ | _ | tb⟩ := attrs <;> simp [addTxsa, parseSaConfig]
  cases hvalid : validateAddTxsa tb with
  | false => simp
  | true =>
    cases hdev : env.devByIndex ifindex with
    | none => simp [getDevFromNl, hdev]
    | some dev =>
      cases hmacsec : dev.isMacsec with
      | false => simp [getDevFromNl, hdev, hmacsec]
      | true => simp [Attrs.txsaRequest, hvalid, hdev, hmacsec] at h

theorem addRxsa_of_request (h : attrs.rxsaRequest env = some (tb, dev, sci)) :
    addRxsa fuel env attrs s =
      (findRxScRtnl fuel sci >>= addRxsaAt env tb dev) (s.rxConfigured dev sci) := by
  obtain ⟨_ | ifindex, _ | _ | tbRxsc, _ | _ | tb'⟩ := attrs <;>
    simp [Attrs.rxsaRequest, Option.bind_eq_some_iff] at h
  obtain ⟨hvalid, hdev, hmacsec, hsci, rfl⟩ := h
  simp [addRxsa, parseSaConfig, parseRxscConfig, hvalid, getDevFromNl, hdev, hmacsec, copyDevSecyData, hsci]
  rfl

/-- A request without an SCI is refused after the configuration was taken over. -/
theorem addRxsa_of_none (fuel : Nat) (h : attrs.rxsaRequest env = none) : ∃ i c conf, i ≠ .notFound ∧
    addRxsa fuel env attrs s = .exit i c { s with secy := { s.secy with conf := conf } } := by
  obtain ⟨_ | ifindex, _ | _ | tbRxsc, _ | _ | tb⟩ := attrs <;> simp [addRxsa, parseSaConfig, parseRxscConfig]
  all_goals try exact ⟨s.secy.conf, rfl⟩
  cases hvalid : validateAddRxsa tb with
  | false => exact ⟨.invalid, by simp, einval, s.secy.conf, rfl⟩
  | true =>
    cases hdev : env.devByIndex ifindex with
    | none => exact ⟨.noDevice, by simp, enodev, s.secy.conf, by simp [getDevFromNl, hdev]⟩
    | some dev =>
      cases hmacsec : dev.isMacsec with
      | false => exact ⟨.noDevice, by simp, enodev, s.secy.conf, by simp [getDevFromNl, hdev, hmacsec]⟩
      | true =>
        have hsci : tbRxsc.sci = none := by simpa [Attrs.rxsaRequest, hvalid, hdev, hmacsec] using h
        exact ⟨.invalid, by simp, einval, dev.secy,
          by simp [getDevFromNl, hdev, hmacsec, hsci, copyDevSecyData]⟩

theorem validate_of_txsaRequest (h : attrs.txsaRequest env = some (tb, dev)) : validateAddTxsa tb = true := by
  obtain ⟨_ | ifindex, rxscConfig, _ | _ | tb'⟩ := attrs <;>
    simp [Attrs.txsaRequest, Option.bind_eq_some_iff] at h
  obtain ⟨hvalid, -, -, rfl⟩ := h
  exact hvalid

theorem validate_of_rxsaRequest (h : attrs.rxsaRequest env = some (tb, dev, sci)) :
    validateAddRxsa tb = true := by
  obtain ⟨_ | ifindex, _ | _ | tbRxsc, _ | _ | tb'⟩ := attrs <;>
    simp [Attrs.rxsaRequest, Option.bind_eq_some_iff] at h
  obtain ⟨hvalid, -, -, -, rfl⟩ := h
  exact hvalid

/-- What an accepted request carries. -/
theorem exists_of_validateAddTxsa (h : validateAddTxsa tb = true) : ∃ an pn key,
    tb.an = some an ∧ tb.pn = some pn ∧ tb.key = some key := by
  obtain ⟨_ | an, active, _ | pn, keyid, _ | key⟩ := tb <;> simp [validateAddTxsa] at h
  exact ⟨an, pn, key, rfl, rfl, rfl⟩

theorem exists_of_validateAddRxsa (h : validateAddRxsa tb = true) : ∃ an key,
    tb.an = some an ∧ tb.key = some key := by
  obtain ⟨_ | an, active, pn, keyid, _ | key⟩ := tb <;> simp [validateAddRxsa] at h
  exact ⟨an, key, rfl, rfl⟩

/-! ## The association in its table -/

def Driver.txLinked (s : Driver) (an : BitVec 8) : Driver :=
  { s with
    secy := { s.secy with txSa := Function.update s.secy.txSa (anIndex an) (some ⟨fun _ => 0⟩) } }

def Driver.rxLinked (s : Driver) (a : Addr) (n : RxSc) (an : BitVec 8) : Driver :=
  { s with
    heap := Function.update s.heap a (some { n with sa := Function.update n.sa (anIndex an) (some ⟨a⟩) }) }

theorem txLinked_self : (s.txLinked an).secy.txSa (anIndex an) = some ⟨fun _ => 0⟩ := by
  simp [Driver.txLinked]

theorem rxLinked_self : (s.rxLinked a n an).heap a =
    some { n with sa := Function.update n.sa (anIndex an) (some ⟨a⟩) } := by
  simp [Driver.rxLinked]

/-- A used number or no memory ends it before the association is in the table. -/
theorem addTxsaAt_eq (han : tb.an = some an) : addTxsaAt env tb dev s =
    let s₁ : Driver := { s with egrData := s.egrData.setAn an }
    if (s.secy.txSa (anIndex an)).isSome then .exit .busy ebusy s₁
    else if env.saMem then programTxsa env tb dev an (s₁.txLinked an)
    else .exit .noMemory enomem s₁ := by
  simp only [addTxsaAt, han, nlaGet_some, call_pure_bind, modifyEgr, modify_bind, get_bind, setTxSa, Driver.txLinked]
  cases hbusy : s.secy.txSa (anIndex an) <;> cases hmem : env.saMem <;> simp

theorem addRxsaAt_eq (han : tb.an = some an) (ha : s.heap a = some n) :
    addRxsaAt env tb dev (.ptr (some a)) s =
      let s₁ : Driver := { s with ingData := s.ingData.setAn an }
      if (n.sa (anIndex an)).isSome then .exit .busy ebusy s₁
      else if env.saMem then programRxsa env tb dev (s₁.rxLinked a n an)
      else .exit .noMemory enomem s₁ := by
  simp only [addRxsaAt, han, isErr, Bool.not_false, require_true, nlaGet_some, call_pure_bind, modifyIng,
    modify_bind, setRxSa, Driver.rxLinked]
  rw [bind_apply]
  simp only [deref, ha]
  cases hbusy : n.sa (anIndex an) <;> cases hmem : env.saMem <;> simp [ha]

theorem addRxsaAt_null : addRxsaAt env tb dev (.ptr none) s = .oops := by
  cases han : tb.an with
  | none => rw [addRxsaAt, han]; rfl
  | some an => rw [addRxsaAt, han]; rfl

end Gpy211Gennl
