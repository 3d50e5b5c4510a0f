import MxlUtils.Gphy.Msec.Types
import MxlUtils.Lib.Chain

/- The netlink side of the example MACsec driver. The receive channels are nodes of
   the kernel heap, linked through `next`; the SA tables hold the associations by
   number. A command runs against what the kernel and the GPHY answer (`Env`) and
   stops at a `return` of an error, at an access through NULL, or never: its loops
   get a number of rounds. The commands behind SUPPORT_ALL_NLM_CMDS are not built,
   and neither are the last two GPHY calls of the add commands. -/
namespace Gpy211Gennl
open Gpy2xx

variable {α β : Type}

/-! ## Data -/

abbrev macsecMaxAn : Nat := 4
def macsecKeyidLen : Nat := 16

def einval : Int := -22
def enodev : Int := -19
def ebusy : Int := -16
def enomem : Int := -12

/-- The address of a node of the heap. -/
abbrev Addr := Nat

/-- What a function that returns a pointer may return: a pointer, NULL being `none`, or an
error in its place. -/
inductive ErrPtr where
  | ptr (p : Option Addr)
  | err (e : Int)
deriving DecidableEq

/-- `IS_ERR` does not hold for NULL. -/
def isErr : ErrPtr → Bool
  | .ptr _ => false
  | .err _ => true

def ptrErr : ErrPtr → Int
  | .ptr _ => 0
  | .err e => e

/-- A receive association: only the way back to its channel is ever set. -/
structure RxSa where
  sc : Addr
deriving DecidableEq

structure TxSa where
  key : Bytes 32

structure RxSc where
  next : Option Addr
  sci : BitVec 64
  active : Bool
  sa : Fin macsecMaxAn → Option RxSa

/-- What `gpy211_copy_dev_secy_data` takes over from the network device. -/
structure SecyConf where
  operational : Bool
  replayWindow : BitVec 32
  protectFrames : Bool
  replayProtect : Bool
  validateFrames : BitVec 8
  keyLen : BitVec 16
  icvLen : BitVec 16
  sci : BitVec 64
  encodingSa : BitVec 8
  encrypt : Bool
  sendSci : Bool
  endStation : Bool
  scb : Bool

structure Secy where
  nRxSc : BitVec 32
  conf : SecyConf
  txSa : Fin macsecMaxAn → Option TxSa
  rxSc : Option Addr

/-- One direction of the parameters handed to the GPHY calls. -/
structure MacsecData where
  transRec : TransformRec
  samParam : SaMatchParam

/-- The private data of the driver and the receive channels on the heap. -/
structure Driver where
  heap : Addr → Option RxSc
  secy : Secy
  ingData : MacsecData
  egrData : MacsecData

/-- The link of a node. -/
def Driver.next (s : Driver) (a : Addr) : Option Addr := (s.heap a).bind (·.next)

/-! ## Requests and answers -/

structure RxscAttrs where
  sci : Option (BitVec 64)
  active : Option (BitVec 8)

structure SaAttrs where
  an : Option (BitVec 8)
  active : Option (BitVec 8)
  pn : Option (BitVec 32)
  keyid : Option (List (BitVec 8))
  key : Option (List (BitVec 8))

/-- The attributes of a message; a nested attribute may be absent or fail to parse. -/
structure Attrs where
  ifindex : Option (BitVec 32)
  rxscConfig : Option (Option RxscAttrs)
  saConfig : Option (Option SaAttrs)

structure NetDevice where
  isMacsec : Bool
  devAddr : Bytes 6
  secy : SecyConf

/-- The answers a command may get: the device of an index, whether and where there is
memory, and what the GPHY calls return. -/
structure Env where
  devByIndex : BitVec 32 → Option NetDevice
  rxScMem : Option Addr
  saMem : Bool
  configEgrTr : TransformRec → Int
  configEgrSamRule : SaMatchParam → Int
  configIngTr : TransformRec → Int
  configIngSamRule : SaMatchParam → Int

/-! ## Calls -/

/-- The `return` of an error: which one of the source it is. -/
inductive Exit where
  | invalid
  | noDevice
  | notFound
  | busy
  | noMemory
  | keyLength
  | transformRecord
  | samRule
deriving DecidableEq

/-- How a call comes out of a state. -/
inductive Outcome (α : Type) where
  | done (a : α) (s : Driver)
  | exit (site : Exit) (code : Int) (s : Driver)
  | oops
  | spins

/-- The driver as a call leaves it. -/
def Outcome.state? : Outcome α → Option Driver
  | .done _ s => some s
  | .exit _ _ s => some s
  | .oops => none
  | .spins => none

abbrev Call (α : Type) := Driver → Outcome α

protected def Call.bind (x : Call α) (f : α → Call β) : Call β := fun s =>
  match x s with
  | .done a s' => f a s'
  | .exit i c s' => .exit i c s'
  | .oops => .oops
  | .spins => .spins

instance : Monad Call where
  pure a := fun s => .done a s
  bind := Call.bind

def get : Call Driver := fun s => .done s s

def modify (f : Driver → Driver) : Call Unit := fun s => .done () (f s)

/-- `return code` -/
def exit (i : Exit) (code : Int) : Call α := fun s => .exit i code s

/-- Return an error unless `c`. -/
def require (c : Bool) (i : Exit) (code : Int) : Call Unit :=
  if c then pure () else exit i code

/-- The attribute read by `nla_get_*`: NULL is not checked there. -/
def nlaGet : Option α → Call α
  | some a => pure a
  | none => fun _ => .oops

/-- The node behind a pointer. -/
def deref (p : ErrPtr) : Call (Addr × RxSc) := fun s =>
  match p with
  | .ptr (some a) =>
    match s.heap a with
    | some n => .done (a, n) s
    | none => .oops
  | .ptr none => .oops
  | .err _ => .oops

/-- A loop that may also make a bad access. -/
def loop {σ : Type} (fuel : Nat) (body : Driver → σ → σ ⊕ Option β) (init : Driver → σ) : Call β := fun s =>
  match Loop.run (body s) fuel (init s) with
  | some (some b) => .done b s
  | some none => .oops
  | none => .spins

/-! ### How calls compose -/

@[simp] theorem call_pure_bind (a : α) (f : α → Call β) : (pure a >>= f) = f a := rfl

@[simp] theorem exit_bind (i : Exit) (c : Int) (f : α → Call β) : (exit i c >>= f) = exit i c := rfl

@[simp] theorem require_true (i : Exit) (c : Int) : require true i c = pure () := rfl

@[simp] theorem require_false (i : Exit) (c : Int) : require false i c = exit i c := rfl

@[simp] theorem nlaGet_some (a : α) : nlaGet (some a) = pure a := rfl

@[simp] theorem modify_bind (g : Driver → Driver) (f : Unit → Call β) (s : Driver) :
    (modify g >>= f) s = f () (g s) := rfl

@[simp] theorem get_bind (f : Driver → Call β) (s : Driver) : (get >>= f) s = f s s := rfl

@[simp] theorem pure_apply (a : α) (s : Driver) : (pure a : Call α) s = .done a s := rfl

@[simp] theorem exit_apply (i : Exit) (c : Int) (s : Driver) : (exit i c : Call α) s = .exit i c s := rfl

theorem bind_apply (x : Call α) (f : α → Call β) (s : Driver) : (x >>= f) s = match x s with
    | .done a s' => f a s'
    | .exit i c s' => .exit i c s'
    | .oops => .oops
    | .spins => .spins := rfl

/-! ## Helpers of the commands -/

def parseSaConfig (attrs : Attrs) : Call SaAttrs :=
  match attrs.saConfig with
  | some (some tb) => pure tb
  | some none => exit .invalid einval
  | none => exit .invalid einval

def parseRxscConfig (attrs : Attrs) : Call RxscAttrs :=
  match attrs.rxscConfig with
  | some (some tb) => pure tb
  | some none => exit .invalid einval
  | none => exit .invalid einval

/-- `attrs[ACTIVE]` is absent or at most one. -/
def activeValid (active : Option (BitVec 8)) : Bool := active.all (· ≤ 1)

def validateAddRxsc (tb : RxscAttrs) : Bool := tb.sci.isSome && activeValid tb.active

def validateAddTxsa (tb : SaAttrs) : Bool :=
  tb.an.isSome && tb.pn.isSome && tb.key.isSome && tb.keyid.isSome &&
  tb.an.all (·.toNat < macsecMaxAn) && tb.pn.all (· ≠ 0) && activeValid tb.active &&
  tb.keyid.all (·.length = macsecKeyidLen)

/-- The packet number need not be there. -/
def validateAddRxsa (tb : SaAttrs) : Bool :=
  tb.an.isSome && tb.key.isSome && tb.keyid.isSome &&
  tb.an.all (·.toNat < macsecMaxAn) && tb.pn.all (· ≠ 0) && activeValid tb.active &&
  tb.keyid.all (·.length = macsecKeyidLen)

/-- The position of an association number in the table, below `macsecMaxAn` once validated. -/
def anIndex (an : BitVec 8) : Fin macsecMaxAn := Fin.ofNat macsecMaxAn an.toNat

def getDevFromNl (env : Env) (attrs : Attrs) : Call NetDevice := do
  let ifindex ← nlaGet attrs.ifindex
  match env.devByIndex ifindex with
  | none => exit .noDevice enodev
  | some dev => if dev.isMacsec then pure dev else exit .noDevice enodev

/-- The high word from its highest byte on, then the high half of the low word. -/
def getSmacFromSci (sci : BitVec 64) : Bytes 6 := fun i => sci.extractLsb' (56 - 8 * i.val) 8

/-- `memcpy` of some bytes to the front of a key. -/
def copyKey (src : List (BitVec 8)) (dst : Bytes 32) : Bytes 32 := fun i => (src[i.val]?).getD (dst i)

/-- The bytes of an SCI as the host stores it. -/
def sciBytes (sci : BitVec 64) : Bytes 8 := fun i => sci.extractLsb' (8 * i.val) 8

def copyDevSecyData (src : SecyConf) : Call Unit :=
  modify fun s => { s with secy := { s.secy with conf := src } }

/-! ## Receive channels -/

/-- One round of the search: the step goes to `secy->rx_sc->next`. -/
def findBody (sci : BitVec 64) (s : Driver) : Option Addr → Option Addr ⊕ Option ErrPtr
  | none => .inr (some (.ptr none))
  | some a =>
    match s.heap a with
    | none => .inr none
    | some n =>
      if n.sci = sci then .inr (some (.ptr (some a)))
      else
        match s.secy.rxSc.bind s.heap with
        | none => .inr none
        | some n => .inl n.next

def findRxScRtnl (fuel : Nat) (sci : BitVec 64) : Call ErrPtr :=
  loop fuel (findBody sci) (·.secy.rxSc)

def createRxSc (env : Env) (sci : BitVec 64) : Call ErrPtr :=
  match env.rxScMem with
  | none => pure (.err enomem)
  | some a => do
    modify fun s =>
      { s with
        heap := Function.update s.heap a (some ⟨s.secy.rxSc, sci, true, fun _ => none⟩)
        secy := { s.secy with rxSc := some a, nRxSc := s.secy.nRxSc + 1 } }
    pure (.ptr (some a))

/-- Where a link is stored: at the head of the list or in a node. -/
inductive Slot where
  | head
  | next (a : Addr)
deriving DecidableEq

/-- One round of the loop of `gpy211_del_rx_sc`, which keeps the slot it came through. -/
def delBody (sci : BitVec 64) (s : Driver) :
    Slot × Option Addr → (Slot × Option Addr) ⊕ Option (Option (Slot × Addr))
  | (_, none) => .inr (some none)
  | (slot, some a) =>
    match s.heap a with
    | none => .inr none
    | some n => if n.sci = sci then .inr (some (some (slot, a))) else .inl (.next a, n.next)

/-- `*slot = p` -/
def Driver.setSlot (s : Driver) (p : Option Addr) : Slot → Driver
  | .head => { s with secy := { s.secy with rxSc := p } }
  | .next a => { s with heap := Function.update s.heap a ((s.heap a).map fun n => { n with next := p }) }

/-- The round of `gpy211_del_rx_sc` that meets the SCI, and its end otherwise. -/
def delRxScAt : Option (Slot × Addr) → Call ErrPtr
  | none => pure (.ptr none)
  | some (slot, a) => do
    let (_, rxSc) ← deref (.ptr (some a))
    if rxSc.active then
      modify fun s => { s with secy := { s.secy with nRxSc := s.secy.nRxSc - 1 } }
    modify fun s => s.setSlot rxSc.next slot
    pure (.ptr (some a))

def delRxSc (fuel : Nat) (sci : BitVec 64) : Call ErrPtr := do
  let found ← loop fuel (delBody sci) fun s => (.head, s.secy.rxSc)
  delRxScAt found

def freeRxSc (p : ErrPtr) : Call Unit :=
  match p with
  | .ptr (some a) => modify fun s => { s with heap := Function.update s.heap a none }
  | .ptr none => pure ()
  | .err _ => pure ()

def setActive (a : Addr) (new : Bool) : Call Unit :=
  modify fun s =>
    { s with heap := Function.update s.heap a ((s.heap a).map fun n => { n with active := new }) }

/-! ## Commands -/

/-- `gpy211_upd_rxsc` after the search. -/
def updRxscAt (tb : RxscAttrs) (rxSc : ErrPtr) : Call Int := do
  require (!isErr rxSc) .notFound (ptrErr rxSc)
  match tb.active with
  | none => pure 0
  | some active =>
    let new := active ≠ 0
    let (a, n) ← deref rxSc
    if n.active ≠ new then
      modify fun s => { s with secy := { s.secy with nRxSc := s.secy.nRxSc + if new then 1 else -1 } }
    setActive a new
    pure 0

def updRxsc (fuel : Nat) (attrs : Attrs) : Call Int := do
  require attrs.ifindex.isSome .invalid einval
  let tb ← parseRxscConfig attrs
  require (validateAddRxsc tb) .invalid einval
  require tb.sci.isSome .invalid einval
  let sci ← nlaGet tb.sci
  let rxSc ← findRxScRtnl fuel sci
  updRxscAt tb rxSc

/-- `gpy211_del_rxsc` after the search. -/
def delRxscAt (rxSc : ErrPtr) : Call Int := do
  require (rxSc ≠ .ptr none) .notFound enodev
  freeRxSc rxSc
  pure 0

def delRxsc (fuel : Nat) (attrs : Attrs) : Call Int := do
  require attrs.ifindex.isSome .invalid einval
  let tb ← parseRxscConfig attrs
  require tb.sci.isSome .invalid einval
  let sci ← nlaGet tb.sci
  let rxSc ← delRxSc fuel sci
  delRxscAt rxSc

/-- `gpy211_add_rxsc` once the channel is in the list. -/
def addRxscAt (tb : RxscAttrs) (rxSc : ErrPtr) : Call Int := do
  require (!isErr rxSc) .noMemory (ptrErr rxSc)
  match tb.active with
  | none => pure 0
  | some active =>
    let (a, _) ← deref rxSc
    setActive a (active ≠ 0)
    pure 0

def addRxsc (env : Env) (attrs : Attrs) : Call Int := do
  require attrs.ifindex.isSome .invalid einval
  let tb ← parseRxscConfig attrs
  require (validateAddRxsc tb) .invalid einval
  let sci ← nlaGet tb.sci
  let rxSc ← createRxSc env sci
  addRxscAt tb rxSc

/-! ## Associations -/

def modifyEgr (f : MacsecData → MacsecData) : Call Unit :=
  modify fun s => { s with egrData := f s.egrData }

def modifyIng (f : MacsecData → MacsecData) : Call Unit :=
  modify fun s => { s with ingData := f s.ingData }

def setTxSa (an : BitVec 8) (sa : TxSa) : Call Unit :=
  modify fun s =>
    { s with secy := { s.secy with txSa := Function.update s.secy.txSa (anIndex an) (some sa) } }

def setRxSa (a : Addr) (an : BitVec 8) (sa : RxSa) : Call Unit :=
  modify fun s =>
    { s with
      heap := Function.update s.heap a
        ((s.heap a).map fun n => { n with sa := Function.update n.sa (anIndex an) (some sa) }) }

/-- The identifier, the keys and the address taken from it. -/
def MacsecData.setSci (sci : BitVec 64) (d : MacsecData) : MacsecData :=
  { transRec := { d.transRec with cp := { d.transRec.cp with sci := sciBytes sci } }
    samParam := { d.samParam with saMac := getSmacFromSci sci } }

def MacsecData.setKey (key : List (BitVec 8)) (d : MacsecData) : MacsecData :=
  { d with transRec := { d.transRec with cp := { d.transRec.cp with key := copyKey key d.transRec.cp.key } } }

def MacsecData.setAn (an : BitVec 8) (d : MacsecData) : MacsecData :=
  { d with transRec := { d.transRec with ccw := { d.transRec.ccw with an := an } } }

def MacsecData.setPn (pn : BitVec 32) (mac : Bytes 6) (d : MacsecData) : MacsecData :=
  { transRec := { d.transRec with pnRc := { d.transRec.pnRc with seq0 := pn } }
    samParam := { d.samParam with daMac := mac } }

/-- The default values of the transform record; 5 is not a cipher suite. -/
def MacsecData.setRecord (d : MacsecData) : MacsecData :=
  { d with
    transRec :=
      { d.transRec with
        ccw := { d.transRec.ccw with caType := .other 5, snType := .sn32Bit }
        saIndex := 0
        saUpdate := ⟨0, 1, 0, 0, 1⟩ } }

def MacsecData.setRule (sci : BitVec 64) (d : MacsecData) : MacsecData :=
  { d with
    samParam :=
      { d.samParam with
        ruleIndex := 0, ethType := 0x0800, misc := 0xf00, sci := sciBytes sci, mask := 0x03f
        extn := d.samParam.extn &&& 0xFF00FFFF } }

/-- `gpy211_add_txsa` once the association is in the table. -/
def programTxsa (env : Env) (tb : SaAttrs) (dev : NetDevice) (an : BitVec 8) : Call Int := do
  let pn ← nlaGet tb.pn
  modifyEgr (.setPn pn dev.devAddr)
  let key ← nlaGet tb.key
  let s ← get
  require (key.length = s.secy.conf.keyLen.toNat) .keyLength einval
  setTxSa an ⟨copyKey key fun _ => 0⟩
  modifyEgr (.setKey key)
  modifyEgr (.setSci s.secy.conf.sci)
  modifyEgr .setRecord
  let s ← get
  require (0 ≤ env.configEgrTr s.egrData.transRec) .transformRecord (-1)
  modifyEgr (.setRule s.secy.conf.sci)
  let s ← get
  require (0 ≤ env.configEgrSamRule s.egrData.samParam) .samRule (-1)
  pure 0

def addTxsa (env : Env) (attrs : Attrs) : Call Int := do
  require attrs.ifindex.isSome .invalid einval
  let tb ← parseSaConfig attrs
  require (validateAddTxsa tb) .invalid einval
  let dev ← getDevFromNl env attrs
  copyDevSecyData dev.secy
  let an ← nlaGet tb.an
  modifyEgr (.setAn an)
  let s ← get
  require (s.secy.txSa (anIndex an)).isNone .busy ebusy
  require env.saMem .noMemory enomem
  setTxSa an ⟨fun _ => 0⟩
  programTxsa env tb dev an

/-- `gpy211_add_rxsa` once the association is in the table. -/
def programRxsa (env : Env) (tb : SaAttrs) (dev : NetDevice) : Call Int := do
  let pn ← nlaGet tb.pn
  modifyIng (.setPn pn dev.devAddr)
  let key ← nlaGet tb.key
  let s ← get
  require (key.length = s.secy.conf.keyLen.toNat) .keyLength einval
  modifyIng (.setKey key)
  modifyIng .setRecord
  let s ← get
  require (0 ≤ env.configIngTr s.ingData.transRec) .transformRecord (-1)
  modifyIng (.setRule s.secy.conf.sci)
  let s ← get
  require (0 ≤ env.configIngSamRule s.ingData.samParam) .samRule (-1)
  pure 0

/-- `gpy211_add_rxsa` after the search. -/
def addRxsaAt (env : Env) (tb : SaAttrs) (dev : NetDevice) (rxSc : ErrPtr) : Call Int := do
  require (!isErr rxSc) .notFound (ptrErr rxSc)
  let an ← nlaGet tb.an
  modifyIng (.setAn an)
  let (a, n) ← deref rxSc
  require (n.sa (anIndex an)).isNone .busy ebusy
  require env.saMem .noMemory enomem
  setRxSa a an ⟨a⟩
  programRxsa env tb dev

def addRxsa (fuel : Nat) (env : Env) (attrs : Attrs) : Call Int := do
  require attrs.ifindex.isSome .invalid einval
  let tb ← parseSaConfig attrs
  let tbRxsc ← parseRxscConfig attrs
  require (validateAddRxsa tb) .invalid einval
  let dev ← getDevFromNl env attrs
  copyDevSecyData dev.secy
  require tbRxsc.sci.isSome .invalid einval
  let sci ← nlaGet tbRxsc.sci
  modifyIng (.setSci sci)
  let rxSc ← findRxScRtnl fuel sci
  addRxsaAt env tb dev rxSc

/-! ## Runs of the driver -/

inductive Command where
  | addRxsc
  | delRxsc
  | updRxsc
  | addTxsa
  | addRxsa
deriving DecidableEq

/-- A message, with the answers it will get. -/
structure Request where
  command : Command
  attrs : Attrs
  env : Env

/-- `gpy211_macsec_postdoit` -/
def Request.call (fuel : Nat) (r : Request) : Call Int :=
  match r.command with
  | .addRxsc => Gpy211Gennl.addRxsc r.env r.attrs
  | .delRxsc => Gpy211Gennl.delRxsc fuel r.attrs
  | .updRxsc => Gpy211Gennl.updRxsc fuel r.attrs
  | .addTxsa => Gpy211Gennl.addTxsa r.env r.attrs
  | .addRxsa => Gpy211Gennl.addRxsa fuel r.env r.attrs

/-- A command that returns takes the driver from `s` to `s'`; new memory is not in use. -/
def Step (s : Driver) (r : Request) (s' : Driver) : Prop :=
  (∀ a, r.env.rxScMem = some a → s.heap a = none) ∧ ∃ fuel, (r.call fuel s).state? = some s'

/-- The driver before the first command: no channel and no association. -/
def Initial (s : Driver) : Prop :=
  s.heap = (fun _ => none) ∧ s.secy.nRxSc = 0 ∧ s.secy.rxSc = none ∧ s.secy.txSa = fun _ => none

end Gpy211Gennl
