import MxlUtils.Gphy.Shared.Init
import MxlUtils.Gphy.Msec.Bypass
import MxlUtils.Gphy.Msec.SamControl
import MxlUtils.Gphy.Ptp.Pps
import MxlUtils.Gphy.Ptp.Time
import MxlUtils.Gphy.Usxgmii.Control
import MxlUtils.Gphy.Pause

/- Shared data and the calls after the initialisation. They look at the family, at what
   is supported and at the base addresses in the PHY's own structure, which with shared
   data holds what the caller left there. Given the device's answers to the
   initialisation, the two ways are the same for every later calls and answers exactly
   when the structure holds already what the answers say. -/
namespace Gpy2xx
open Effect Effect.Fallible Effect.Lock Bits

/-! ## The calls -/

/-- The calls that look at what the initialisation derived. -/
inductive DerivedCall where
  | synceCfg (synce : Synce)
  | synceGet
  | usxgmiiTxBertCfg (cfg : TxBert)
  | usxgmiiTxBertGet (cfg : TxBert)
  | usxgmiiRxBertCfg (mode : RxBertMode)
  | usxgmiiRxBertGet
  | usxgmiiLoopbackCfg (mode : UsxgmiiLoopback)
  | usxgmiiLoopbackGet
  | gmaclPauseCfg (pcfg : PauseCfg)
  | gmaclPauseGet
  | gmacxPmPdiCfg (pmCfg : PmConfig)
  | gmacxPmPdiGet
  | gmacxBmCfg (bmcfg : BmCfg)
  | gmacxBmGet
  | macsecEnable (msecCfg : Gpy211Macsec)
  | macsecDisable
  | msecInitDev (dir : MsecDir)
  | msecConfigTr (dir : MsecDir) (inTr : TransformRec)
  | msecUpdateEgrSaCw (inTr : TransformRec)
  | msecGetTr (dir : MsecDir) (saIndex : BitVec 8)
  | msecGetPn (dir : MsecDir) (saIndex : BitVec 8)
  | msecClearTr (dir : MsecDir) (saIndex : BitVec 8)
  | msecConfigSamRule (dir : MsecDir) (inSam : SaMatchParam)
  | msecGetSamRule (dir : MsecDir) (ruleIndex : BitVec 8)
  | msecClearSamRule (dir : MsecDir) (ruleIndex : BitVec 8)
  | msecConfigSamFca (dir : MsecDir) (fca : SaMatchFca)
  | msecGetSamFca (dir : MsecDir) (flowIndex : BitVec 8)
  | msecClearSamFca (dir : MsecDir) (flowIndex : BitVec 8)
  | msecConfigSamEex (dir : MsecDir) (inEe : RawSamEe)
  | msecGetSamEef (dir : MsecDir)
  | ptpSetTsctrl (tsCfg : TsCtrl)
  | ptpGetPpsctrl
  | ptpSetPpsctrl (ppsCtrl : PpsCtrl) (gpcSel : BitVec 32)
  | ptpSetPtoctrl (ptoCtrl : PtoConfig)
  | ptpGettime
  | ptpAuxCfg (auxCfg : AuxCfg)
  | ptpGetauxts
  | ptpAuxfifostat
  | ptpResetauxfifo

namespace DerivedCall

/-- What a call gives to its caller, beside the error. -/
def Ret : DerivedCall → Type
  | .synceGet => Synce
  | .usxgmiiTxBertGet _ => TxBert
  | .usxgmiiRxBertGet => RxBertMode
  | .usxgmiiLoopbackGet => UsxgmiiLoopback
  | .gmaclPauseGet => PauseCfg
  | .gmacxPmPdiGet => PmConfig
  | .gmacxBmGet => BmCfg
  | .msecInitDev _ => BitVec 8
  | .msecConfigTr _ _ => TransformRec
  | .msecGetTr _ _ | .msecGetSamRule _ _ | .msecGetSamEef _ => Nat → BitVec 32
  | .msecGetPn _ _ => BitVec 64
  | .msecGetSamFca _ _ => BitVec 32 × Option (BitVec 32)
  | .ptpGetPpsctrl => PpsCtrl
  | .ptpGettime | .ptpGetauxts => Timespec64
  | .ptpAuxfifostat => AuxFifoStat
  | _ => Unit

/-- The call, on a PHY's own structure; the settings of the link are those of the data it uses. -/
def run (aesEncrypt : AesEncrypt) (link : Link) (phy : SynceDevice) : (c : DerivedCall) → Call c.Ret
  | .synceCfg synce => (fun _ => ()) <$> gpy2xxSynceCfg phy link synce
  | .synceGet => gpy2xxSynceGet phy
  | .usxgmiiTxBertCfg cfg => gpy2xxUsxgmiiTxBertCfg phy.toGpy211Device cfg
  | .usxgmiiTxBertGet cfg => gpy2xxUsxgmiiTxBertGet phy.toGpy211Device cfg
  | .usxgmiiRxBertCfg mode => gpy2xxUsxgmiiRxBertCfg phy.toGpy211Device mode
  | .usxgmiiRxBertGet => gpy2xxUsxgmiiRxBertGet phy.toGpy211Device
  | .usxgmiiLoopbackCfg mode => gpy2xxUsxgmiiLoopbackCfg phy.toGpy211Device mode
  | .usxgmiiLoopbackGet => gpy2xxUsxgmiiLoopbackGet phy.toGpy211Device
  | .gmaclPauseCfg pcfg => gpy2xxGmaclPauseCfg phy.toGpy211Device pcfg
  | .gmaclPauseGet => gpy2xxGmaclPauseGet phy.toGpy211Device
  | .gmacxPmPdiCfg pmCfg => gpy2xxGmacxPmPdiCfg phy.toGpy211Device pmCfg
  | .gmacxPmPdiGet => gpy2xxGmacxPmPdiGet phy.toGpy211Device
  | .gmacxBmCfg bmcfg => gpy2xxGmacxBmCfg phy.toGpy211Device bmcfg
  | .gmacxBmGet => gpy2xxGmacxBmGet phy.toGpy211Device
  | .macsecEnable msecCfg => gpy2xxMacsecEnable phy.toGpy211Device msecCfg
  | .macsecDisable => gpy2xxMacsecDisable phy.toGpy211Device
  | .msecInitDev dir => initDev dir phy.toGpy211Device
  | .msecConfigTr dir inTr => configTr aesEncrypt dir phy.toMsecDevice inTr
  | .msecUpdateEgrSaCw inTr => gpy2xxMsecUpdateEgrSaCw phy.toMsecDevice inTr
  | .msecGetTr dir saIndex => getTr dir phy.toMsecDevice saIndex
  | .msecGetPn dir saIndex => getPn dir phy.toMsecDevice saIndex
  | .msecClearTr dir saIndex => clearTr dir phy.toMsecDevice saIndex
  | .msecConfigSamRule dir inSam => configSamRule dir phy.toMsecDevice inSam
  | .msecGetSamRule dir ruleIndex => getSamRule dir phy.toMsecDevice ruleIndex
  | .msecClearSamRule dir ruleIndex => clearSamRule dir phy.toMsecDevice ruleIndex
  | .msecConfigSamFca dir fca => configSamFca dir phy.toMsecDevice fca
  | .msecGetSamFca dir flowIndex => getSamFca dir phy.toMsecDevice flowIndex
  | .msecClearSamFca dir flowIndex => clearSamFca dir phy.toMsecDevice flowIndex
  | .msecConfigSamEex dir inEe => configSamEex dir phy.toMsecDevice inEe
  | .msecGetSamEef dir => getSamEef dir phy.toMsecDevice
  | .ptpSetTsctrl tsCfg => gpy2xxPtpSetTsctrl phy.toGpy211Device tsCfg
  | .ptpGetPpsctrl => gpy2xxPtpGetPpsctrl phy.toGpy211Device
  | .ptpSetPpsctrl ppsCtrl gpcSel => gpy2xxPtpSetPpsctrl phy.toGpy211Device ppsCtrl gpcSel
  | .ptpSetPtoctrl ptoCtrl => gpy2xxPtpSetPtoctrl phy.toGpy211Device ptoCtrl
  | .ptpGettime => gpy2xxPtpGettime phy.toGpy211Device
  | .ptpAuxCfg auxCfg => gpy2xxPtpAuxCfg phy.toGpy211Device auxCfg
  | .ptpGetauxts => gpy2xxPtpGetauxts phy.toGpy211Device
  | .ptpAuxfifostat => gpy2xxPtpAuxfifostat phy.toGpy211Device
  | .ptpResetauxfifo => gpy2xxPtpResetauxfifo phy.toGpy211Device

/-- The engines' number of SAs, which the initialisation of an engine reads again into
`phy->nr_of_sas`. -/
def nrOfSasRead (nrOfSas : BitVec 8) : Event regSig → BitVec 8
  | ⟨.mboxRead32 a, .ok config⟩ =>
    if a = eip160Config .ingress ∨ a = eip160Config .egress then config.setWidth 8 else nrOfSas
  | _ => nrOfSas

/-- The PHY's own structure after a call. -/
def after (phy : SynceDevice) (t : Trace regSig.locking) : DerivedCall → SynceDevice
  | .macsecEnable _ | .msecInitDev _ => { phy with nrOfSas := (accesses t).foldl nrOfSasRead phy.nrOfSas }
  | _ => phy

end DerivedCall

/-- A call and how it ended. -/
structure Outcome where
  call : DerivedCall
  result : Except Errno call.Ret

/-- The calls in order, also after one that fails. -/
def session (aesEncrypt : AesEncrypt) (link : Link) (phy : SynceDevice) :
    List DerivedCall → Call (List Outcome)
  | [] => pure []
  | c :: calls => do
    let (t, result) ← traced (c.run aesEncrypt link phy)
    let outcomes ← session aesEncrypt link (c.after phy t) calls
    pure (⟨c, result⟩ :: outcomes)

/-- Given the answers to the initialisation, the two ways show the same accesses and results, for
all later calls and answers. -/
def TransparentAfter (aesEncrypt : AesEncrypt) (p : PhyData) (t₀ : Trace regSig.locking) : Prop :=
  ∀ calls t r,
    (initOwn p >>= fun i => session aesEncrypt i.link.toLink i.phy calls).Runs (t₀ ++ t) r ↔
    (initShared p >>= fun i => session aesEncrypt i.link.toLink i.phy calls).Runs (t₀ ++ t) r

/-! ## What the structure has to hold -/

/-- The family that was read passes the SyncE check if and only if the one in the structure does. -/
def CheckAgrees (p : PhyData) (t : RegTrace) : Prop :=
  ∀ val, mmdAnswer .vend2 familyReg t = some val → (SynceFamily p.family ↔ SynceFamily (foundFamily val))

/-- The structure holds what is read, if anything is. -/
structure HoldsAnswers (phy : SynceDevice) (t : RegTrace) : Prop where
  family : ∀ val, mmdAnswer .vend2 familyReg t = some val → phy.family = foundFamily val
  bases : ∀ val, mmdAnswer .vend2 familyReg t = some val →
    phy.gmacfBaseAddr = (if foundFamily val = .p34x then 0xA32000 else 0xD30000) ∧
    phy.gmaclBaseAddr = (if foundFamily val = .p34x then 0xA30000 else 0xD32000) ∧
    phy.pmBaseAddr = (if foundFamily val = .p34x then 0xA38000 else 0xD38000)
  synce : ∀ val wd2, mmdAnswer .vend2 familyReg t = some val → phyAnswer stdPhyid2 t = some wd2 →
    phy.synceSupported = synceBit (foundFamily val) ((wd2.extractLsb' 4 6).setWidth 8) wd2
  macsec : ∀ stat, mmdAnswer .vend1 sgmiiStat t = some stat → phy.macsecSupported = stat.getLsbD 15

/-! ## Sessions tell structures apart -/

section Sessions
variable {aesEncrypt : AesEncrypt} {link link' : Link} {phy phy' : SynceDevice}

/-- A restart of the negotiation sets one of the link's settings and looks at none. -/
theorem synceCfg_link (synce : Synce) : (fun _ => ()) <$> gpy2xxSynceCfg phy link' synce =
    (fun _ => ()) <$> gpy2xxSynceCfg phy link synce := by
  have hset : ∀ link, (fun _ => ()) <$> setSynce phy.family link synce =
      (fun _ => ()) <$> setSynce phy.family freshLink.toLink synce := by
    intro link
    simp only [setSynce, restartAneg, map_bind, map_pure]
  rw [gpy2xxSynceCfg, gpy2xxSynceCfg]
  split_ifs
  · rfl
  · rw [map_locked, map_locked, hset link', hset link]
  · rfl

theorem run_link (c : DerivedCall) : c.run aesEncrypt link' phy = c.run aesEncrypt link phy := by
  cases c with
  | synceCfg synce => exact synceCfg_link synce
  | _ => rfl

theorem session_link (calls : List DerivedCall) :
    session aesEncrypt link' phy calls = session aesEncrypt link phy calls := by
  induction calls generalizing phy with
  | nil => rfl
  | cons c calls ih => simp only [session, @run_link aesEncrypt link link' phy c, ih]

/-- The session of one call. -/
theorem runs_session_single {c : DerivedCall} {t : Trace regSig.locking}
    {r : Except Errno (List Outcome)} : (session aesEncrypt link phy [c]).Runs t r ↔
      ∃ result, (c.run aesEncrypt link phy).Runs t result ∧ r = .ok [⟨c, result⟩] := by
  rw [session, runs_bind]
  constructor
  · intro h
    rcases h with ⟨e, h, -⟩ | ⟨t₁, o, t₂, rfl, h, rfl, rfl⟩
    · obtain ⟨_, -, hc⟩ := (runs_traced).mp h
      cases hc
    · obtain ⟨result, hrun, hc⟩ := (runs_traced).mp h
      cases hc
      rw [List.append_nil]
      exact ⟨result, hrun, rfl⟩
  · intro h
    obtain ⟨result, hrun, rfl⟩ := h
    exact .inr ⟨t, (t, result), [], (List.append_nil t).symm, (runs_traced).mpr ⟨result, hrun, rfl⟩, rfl, rfl⟩

/-- Two structures on which every session shows the same accesses and results. -/
def SessionsAgree (aesEncrypt : AesEncrypt) (link link' : Link) (phy phy' : SynceDevice) : Prop :=
  ∀ calls t r, (session aesEncrypt link phy calls).Runs t r ↔ (session aesEncrypt link' phy' calls).Runs t r

theorem SessionsAgree.call (h : SessionsAgree aesEncrypt link link' phy phy') (c : DerivedCall)
    (t : Trace regSig.locking) (result : Except Errno c.Ret) :
    (c.run aesEncrypt link phy).Runs t result ↔ (c.run aesEncrypt link' phy').Runs t result := by
  have hsession := h [c] t (.ok [⟨c, result⟩])
  rw [runs_session_single, runs_session_single] at hsession
  have hsame : ∀ result', (Except.ok [⟨c, result⟩] : Except Errno (List Outcome)) = .ok [⟨c, result'⟩] →
      result' = result := by
    intro result' heq
    cases heq
    rfl
  constructor
  · intro hrun
    obtain ⟨result', hrun', heq⟩ := hsession.mp ⟨result, hrun, rfl⟩
    rwa [hsame result' heq] at hrun'
  · intro hrun
    obtain ⟨result', hrun', heq⟩ := hsession.mpr ⟨result, hrun, rfl⟩
    rwa [hsame result' heq] at hrun'

/-- The first address that is read tells functions apart. -/
theorem first_mboxRead16 {α : Type} {a a' : Nat} {f f' : BitVec 16 → Api α}
    (h : ∀ t r, (locked (phyMboxHwrd a >>= f)).Runs t r → (locked (phyMboxHwrd a' >>= f')).Runs t r) :
    a = a' := by
  have hfail : (phyMboxHwrd a >>= f).Runs [⟨.mboxRead16 a, .error EINVAL⟩] (.error EINVAL) :=
    (runs_phyMboxHwrd_bind).mpr (.inl ⟨_, rfl, rfl⟩)
  rcases (runs_phyMboxHwrd_bind).mp (body_runs_of_locked h hfail) with ⟨e, ht, -⟩ | ⟨v, t', ht, -⟩
  · cases ht
    rfl
  · cases ht

/-- So does the second. -/
theorem second_mboxRead16 {α : Type} {a a' b b' : Nat} {f f' : BitVec 16 → BitVec 16 → Api α}
    (h : ∀ t r, (locked (phyMboxHwrd a >>= fun v => phyMboxHwrd b >>= f v)).Runs t r →
      (locked (phyMboxHwrd a' >>= fun v => phyMboxHwrd b' >>= f' v)).Runs t r) : b = b' := by
  have hfail : (phyMboxHwrd a >>= fun v => phyMboxHwrd b >>= f v).Runs
      [⟨.mboxRead16 a, .ok 0⟩, ⟨.mboxRead16 b, .error EINVAL⟩] (.error EINVAL) :=
    (runs_phyMboxHwrd_bind).mpr (.inr ⟨0, _, rfl, (runs_phyMboxHwrd_bind).mpr (.inl ⟨_, rfl, rfl⟩)⟩)
  rcases (runs_phyMboxHwrd_bind).mp (body_runs_of_locked h hfail) with ⟨e, ht, -⟩ | ⟨v, t', ht, hb⟩
  · cases ht
  · cases ht
    rcases (runs_phyMboxHwrd_bind).mp hb with ⟨e, ht, -⟩ | ⟨v, t', ht, -⟩
    · cases ht
      rfl
    · cases ht

/-- What the calls look at is the same in structures on which they agree. -/
theorem SessionsAgree.fields (h : SessionsAgree aesEncrypt link link' phy phy') :
    (phy.family = .p34x ↔ phy'.family = .p34x) ∧ phy.synceSupported = phy'.synceSupported ∧
    phy.macsecSupported = phy'.macsecSupported ∧ phy.gmacfBaseAddr = phy'.gmacfBaseAddr ∧
    phy.gmaclBaseAddr = phy'.gmaclBaseAddr ∧ phy.pmBaseAddr = phy'.pmBaseAddr := by
  have hfamily : phy.family ≠ .p34x ↔ phy'.family ≠ .p34x :=
    LocksFirst.gate_iff (LocksFirst.locked _) (LocksFirst.locked _)
      (h.call .usxgmiiRxBertGet)
  have hsynce : phy.synceSupported = false ↔ phy'.synceSupported = false :=
    LocksFirst.gate_iff (LocksFirst.locked _) (LocksFirst.locked _)
      (h.call .synceGet)
  have hmacsec : (!phy.macsecSupported) = true ↔ (!phy'.macsecSupported) = true :=
    LocksFirst.gate_iff (LocksFirst.locked _) (LocksFirst.locked _)
      (h.call .macsecDisable)
  have hgmacf : phy.gmacfBaseAddr + timestampStatusL = phy'.gmacfBaseAddr + timestampStatusL :=
    first_mboxRead16 fun t r => (h.call .ptpAuxfifostat t r).mp
  have hpm : phy.pmBaseAddr + 0x0 = phy'.pmBaseAddr + 0x0 :=
    first_mboxRead16 fun t r => (h.call .gmacxPmPdiGet t r).mp
  have hgmacl : phy.gmaclBaseAddr + 0xE0 = phy'.gmaclBaseAddr + 0xE0 :=
    second_mboxRead16 fun t r => (h.call .gmaclPauseGet t r).mp
  refine ⟨not_iff_not.mp hfamily, ?_, ?_, ?_, ?_, ?_⟩
  · cases hphy : phy.synceSupported <;> cases hphy' : phy'.synceSupported <;> simp_all
  · cases hphy : phy.macsecSupported <;> cases hphy' : phy'.macsecSupported <;> simp_all
  · omega
  · omega
  · omega

end Sessions

/-! ## The two initialisations -/

section Init
variable {p : PhyData} {t₀ : Trace regSig.locking} {r₀ : Except Errno Inited}

/-- How the shared initialisation ends when the other one ended with `r₀`: with the same error, or
with a structure that differs from the other's only in what the calls look at. -/
def EndsLike (holds : Prop) (r₀ r₁ : Except Errno Inited) : Prop :=
  match r₀ with
  | .error e => r₁ = .error e
  | .ok i => ∃ i', r₁ = .ok i' ∧ (i.phy = i'.phy ↔ holds) ∧
      ∀ aesEncrypt, SessionsAgree aesEncrypt i.link.toLink i'.link.toLink i.phy i'.phy → i.phy = i'.phy

/-- Nothing is read after the SyncE check has failed. -/
theorem not_runs_readRest_nil {link : LinkStatus} {c : Except Errno (Option (BitVec 8) × LinkStatus)} :
    ¬(readRest link).Runs [] c := by
  intro h
  obtain ⟨_, _, ht, -⟩ := runs_readRest h
  cases ht

/-- What the second body does with the answers of the first, where the first gets to the SyncE
check. -/
theorem runs_initBody_both {own : Family × BitVec 8} {link link' : LinkStatus} {t₁ t₂ : RegTrace}
    {x : BitVec 16 × (Family → DeviceId) × Family} {c : Except Errno (Option DeviceInit)}
    (hx : readFront.Runs t₁ (.ok x)) (h : (initBody none link).Runs (t₁ ++ t₂) c) :
    ((SynceFamily own.1 ↔ SynceFamily x.2.2) ↔ ∃ c', (initBody (some own) link').Runs (t₁ ++ t₂) c') ∧
    ∀ c', (initBody (some own) link').Runs (t₁ ++ t₂) c' → (∃ e, c = .error e ∧ c' = .error e) ∨
      ∃ y, c = .ok (some (foundBy x (synceBit x.2.2 (x.2.1 x.2.2).modelNo x.1) y)) ∧
        c' = .ok (some (foundBy x (synceBit own.1 own.2 x.1) (y.1, keepFixed link'.fixed2g5 y.2))) ∧
        (readRest link).Runs t₂ (.ok y) ∧ SynceFamily x.2.2 ∧ SynceFamily own.1 := by
  have hshared := fun c' => @runs_initBody_front (some own) link' t₂ t₁ x hx c'
  simp only [Option.getD_some] at hshared
  rcases (runs_initBody_front hx).mp h with ⟨hnot, rfl, rfl⟩ | ⟨hfound, r, hrest, rfl⟩
  · have hnot : ¬SynceFamily x.2.2 := hnot
    by_cases hown : SynceFamily own.1
    · -- the second goes on, and nothing is left to read
      have hnone : ∀ c', ¬(initBody (some own) link').Runs (t₁ ++ []) c' := by
        intro c' hc'
        rcases (hshared c').mp hc' with ⟨hno, -⟩ | ⟨-, r, hrest, -⟩
        · exact hno hown
        · exact not_runs_readRest_nil hrest
      refine ⟨⟨fun hiff => absurd (hiff.mp hown) hnot, fun hrun => ?_⟩, fun c' hc' => absurd hc' (hnone c')⟩
      obtain ⟨c', hc'⟩ := hrun
      exact absurd hc' (hnone c')
    · refine ⟨⟨fun _ => ⟨.error EINVAL, (hshared _).mpr (.inl ⟨hown, rfl, rfl⟩)⟩, fun _ => ?_⟩, fun c' hc' => ?_⟩
      · exact iff_of_false hown hnot
      · rcases (hshared c').mp hc' with ⟨-, -, rfl⟩ | ⟨hyes, -⟩
        · exact .inl ⟨EINVAL, rfl, rfl⟩
        · exact absurd hyes hown
  · have hfound : SynceFamily x.2.2 := hfound
    by_cases hown : SynceFamily own.1
    · have hkeep := @runs_readRest_keep link t₂ link' r hrest
      refine ⟨⟨fun _ => ⟨_, (hshared _).mpr (.inr ⟨hown, _, hkeep, rfl⟩)⟩, fun _ => ?_⟩, fun c' hc' => ?_⟩
      · exact iff_of_true hown hfound
      · rcases (hshared c').mp hc' with ⟨hno, -⟩ | ⟨-, r', hrest', rfl⟩
        · exact absurd hown hno
        · obtain rfl := Prog.runs_unique hkeep hrest'
          cases r with
          | error e => exact .inl ⟨e, rfl, rfl⟩
          | ok y => exact .inr ⟨y, rfl, rfl, hrest, hfound, hown⟩
    · -- the first went on, and the second has nothing to read
      have hnone : ∀ c', ¬(initBody (some own) link').Runs (t₁ ++ t₂) c' := by
        intro c' hc'
        rcases (hshared c').mp hc' with ⟨-, rfl, -⟩ | ⟨hyes, -⟩
        · exact not_runs_readRest_nil hrest
        · exact hown hyes
      refine ⟨⟨fun hiff => absurd (hiff.mpr hfound) hown, fun hrun => ?_⟩, fun c' hc' => absurd hc' (hnone c')⟩
      obtain ⟨c', hc'⟩ := hrun
      exact absurd hc' (hnone c')

/-- A PHY that has been initialised is not looked at again. -/
theorem runs_init_true {own : Option (Family × BitVec 8)} {link : LinkStatus} {c : Except Errno (Option DeviceInit)}
    (h : (gpy2xxInit true own link).Runs t₀ c) :
    (∀ devad reg, mmdAnswer devad reg (accesses t₀) = none) ∧ ∀ d, c ≠ .ok (some d) := by
  rw [gpy2xxInit_true] at h
  have hbody := Lock.Runs.accesses_locked h
  rw [phySetBits, phySetMaskBits, bind_assoc, runs_phyRead_bind] at hbody
  rcases hbody with ⟨e, ht, rfl⟩ | ⟨v, t', ht, hbody⟩
  · exact ⟨fun devad reg => by rw [ht]; rfl, fun d hd => by cases hd⟩
  · rcases (runs_phyWrite_bind).mp hbody with ⟨e, rfl, rfl⟩ | ⟨_, t'', rfl, rfl, rfl⟩
    · exact ⟨fun devad reg => by rw [ht]; rfl, fun d hd => by cases hd⟩
    · exact ⟨fun devad reg => by rw [ht]; rfl, fun d hd => by cases hd⟩

section Found
variable {wd1 wd2 fwv stat1 val : BitVec 16} {id : Family → DeviceId} {link link' : LinkStatus} {t : RegTrace}
  {y : Option (BitVec 8) × LinkStatus} {synce : Bool}

/-- The structures after the two initialisations are the same if the caller's holds the answers. -/
theorem withFound_iff_holdsAnswers
    (hid : ∀ family, (id family).modelNo = (wd2.extractLsb' 4 6).setWidth 8 ∧ (id family).family = family)
    (hrest : (readRest link).Runs t (.ok y)) :
    p.toSynceDevice.withFound (foundBy (wd2, id, foundFamily val)
        (synceBit (foundFamily val) (id (foundFamily val)).modelNo wd2) y) =
      p.toSynceDevice.withNrOfSas (foundBy (wd2, id, foundFamily val) synce (y.1, keepFixed link'.fixed2g5 y.2)) ↔
    HoldsAnswers p.toSynceDevice (frontTrace wd1 wd2 fwv stat1 val ++ t) := by
  obtain ⟨a, t', rfl, hstat⟩ := runs_readRest hrest
  obtain ⟨stat, rfl, hmacsec⟩ := hstat y rfl
  have hanswer : mmdAnswer .vend1 sgmiiStat (frontTrace wd1 wd2 fwv stat1 val ++
      ⟨.mmdRead .vend1 sgmiiStat, .ok stat⟩ :: t') = some stat := rfl
  have hnr : (foundBy (wd2, id, foundFamily val) synce (y.1, keepFixed link'.fixed2g5 y.2)).nrOfSas =
      (foundBy (wd2, id, foundFamily val)
        (synceBit (foundFamily val) (id (foundFamily val)).modelNo wd2) y).nrOfSas := rfl
  rw [SynceDevice.withFound_eq_iff hnr]
  simp only [foundBy, (hid _).1, (hid _).2, hmacsec]
  constructor
  · intro h
    obtain ⟨hfamily, hsynce, hmacsec', hgmacf, hgmacl, hpm⟩ := h
    constructor
    · intro val' hval
      cases mmdAnswer_front.symm.trans hval
      exact hfamily
    · intro val' hval
      cases mmdAnswer_front.symm.trans hval
      exact ⟨hgmacf, hgmacl, hpm⟩
    · intro val' wd2' hval hwd2
      cases mmdAnswer_front.symm.trans hval
      cases phyAnswer_front.symm.trans hwd2
      exact hsynce
    · intro stat' hstat'
      cases hanswer.symm.trans hstat'
      exact hmacsec'
  · intro h
    obtain ⟨hgmacf, hgmacl, hpm⟩ := h.bases val mmdAnswer_front
    exact ⟨h.family val mmdAnswer_front, h.synce val wd2 mmdAnswer_front phyAnswer_front, h.macsec stat hanswer,
      hgmacf, hgmacl, hpm⟩

/-- Structures that no session tells apart are the same. -/
theorem withFound_of_sessionsAgree {synce' : Bool}
    (hid : ∀ family, (id family).modelNo = (wd2.extractLsb' 4 6).setWidth 8 ∧ (id family).family = family)
    (hfound : SynceFamily (foundFamily val)) (hown : SynceFamily p.family) (aesEncrypt : AesEncrypt)
    (h : SessionsAgree aesEncrypt y.2.toLink (keepFixed link'.fixed2g5 y.2).toLink
      (p.toSynceDevice.withFound (foundBy (wd2, id, foundFamily val) synce y))
      (p.toSynceDevice.withNrOfSas
        (foundBy (wd2, id, foundFamily val) synce' (y.1, keepFixed link'.fixed2g5 y.2)))) :
    p.toSynceDevice.withFound (foundBy (wd2, id, foundFamily val) synce y) =
      p.toSynceDevice.withNrOfSas
        (foundBy (wd2, id, foundFamily val) synce' (y.1, keepFixed link'.fixed2g5 y.2)) := by
  obtain ⟨hfamily, hsynce, hmacsec, hgmacf, hgmacl, hpm⟩ := h.fields
  have hsame : (id (foundFamily val)).family = .p34x ↔ p.family = .p34x := hfamily
  have hnr : (foundBy (wd2, id, foundFamily val) synce' (y.1, keepFixed link'.fixed2g5 y.2)).nrOfSas =
      (foundBy (wd2, id, foundFamily val) synce y).nrOfSas := rfl
  rw [(hid _).2] at hsame
  rw [SynceDevice.withFound_eq_iff hnr]
  refine ⟨?_, hsynce.symm, hmacsec.symm, hgmacf.symm, hgmacl.symm, hpm.symm⟩
  have hfamily' : p.family = foundFamily val := by
    rcases hfound with hval | hval <;> rcases hown with hp | hp <;> rw [hval, hp] at hsame ⊢
    · exact absurd (hsame.mpr rfl) (by decide)
    · exact absurd (hsame.mp rfl) (by decide)
  exact hfamily'.trans (hid _).2.symm

end Found

/-- The shared initialisation makes the accesses of the other if and only if the SyncE check comes
out the same, and then it ends like the other. -/
theorem initShared_runs_iff (h : (initOwn p).Runs t₀ r₀) :
    (CheckAgrees p (accesses t₀) ↔ ∃ r₁, (initShared p).Runs t₀ r₁) ∧
      ∀ r₁, (initShared p).Runs t₀ r₁ → EndsLike (HoldsAnswers p.toSynceDevice (accesses t₀)) r₀ r₁ := by
  obtain ⟨c, hc, rfl⟩ := (runs_map).mp h
  cases hpriv : p.privData with
  | true =>
    rw [hpriv] at hc
    obtain ⟨hanswer, hnone⟩ := runs_init_true hc
    rw [gpy2xxInit_true] at hc
    have hcheck : CheckAgrees p (accesses t₀) := fun val hval => by
      rw [hanswer] at hval
      cases hval
    have hholds : HoldsAnswers p.toSynceDevice (accesses t₀) := by
      constructor <;> simp [hanswer]
    have hshared : (initShared p).Runs t₀ (c.map p.initedShared) := by
      rw [initShared, hpriv, gpy2xxInit_true]
      exact (runs_map).mpr ⟨c, hc, rfl⟩
    refine ⟨iff_of_true hcheck ⟨_, hshared⟩, fun r₁ hr₁ => ?_⟩
    obtain rfl := Prog.runs_unique hshared hr₁
    match c, hnone with
    | .error e, _ => exact rfl
    | .ok none, _ => exact ⟨_, rfl, iff_of_true rfl hholds, fun _ _ => rfl⟩
    | .ok (some d), hnone => exact absurd rfl (hnone d)
  | false =>
    rw [hpriv, gpy2xxInit_false] at hc
    have hshared : ∀ r₁, (initShared p).Runs t₀ r₁ ↔
        ∃ c', (initBody (some (p.family, p.modelNo)) freshLink).Runs (accesses t₀) c' ∧
          r₁ = c'.map p.initedShared := by
      intro r₁
      rw [initShared, hpriv, gpy2xxInit_false, runs_map]
      simp only [runs_locked_of_trace hc]
    have hbody := Lock.Runs.accesses_locked hc
    rcases (runs_bind).mp hbody with ⟨e, hfront, rfl⟩ | ⟨t₁, x, t₂, ht, hfront, -⟩
    · have hanswer : mmdAnswer .vend2 familyReg (accesses t₀) = none := by
        rcases runs_readFront hfront with ⟨e', -, hanswer⟩ | ⟨_, _, _, _, _, _, -, hr, -⟩
        · exact hanswer
        · cases hr
      have hsame : (initBody (some (p.family, p.modelNo)) freshLink).Runs (accesses t₀) (.error e) :=
        (runs_bind).mpr (.inl ⟨e, hfront, rfl⟩)
      have hcheck : CheckAgrees p (accesses t₀) := fun val hval => by
        rw [hanswer] at hval
        cases hval
      refine ⟨iff_of_true hcheck ⟨_, (hshared _).mpr ⟨_, hsame, rfl⟩⟩, fun r₁ hr₁ => ?_⟩
      obtain ⟨c', hc', rfl⟩ := (hshared r₁).mp hr₁
      obtain rfl := Prog.runs_unique hsame hc'
      exact rfl
    · rcases runs_readFront hfront with ⟨_, hr, -⟩ | ⟨wd1, wd2, fwv, stat1, val, id, rfl, hr, hid⟩
      · cases hr
      cases hr
      rw [ht] at hbody hshared ⊢
      obtain ⟨hruns, hends⟩ :=
        @runs_initBody_both (p.family, p.modelNo) p.link freshLink _ t₂ _ c hfront hbody
      have hcheck : CheckAgrees p (frontTrace wd1 wd2 fwv stat1 val ++ t₂) ↔
          (SynceFamily p.family ↔ SynceFamily (foundFamily val)) := by
        constructor
        · intro h
          exact h val mmdAnswer_front
        · intro h val' hval
          cases mmdAnswer_front.symm.trans hval
          exact h
      refine ⟨hcheck.trans (hruns.trans ?_), fun r₁ hr₁ => ?_⟩
      · constructor
        · intro hrun
          obtain ⟨c', hc'⟩ := hrun
          exact ⟨_, (hshared _).mpr ⟨c', hc', rfl⟩⟩
        · intro hrun
          obtain ⟨r₁, hr₁⟩ := hrun
          obtain ⟨c', hc', -⟩ := (hshared r₁).mp hr₁
          exact ⟨c', hc'⟩
      · obtain ⟨c', hc', rfl⟩ := (hshared r₁).mp hr₁
        rcases hends c' hc' with ⟨e, rfl, rfl⟩ | ⟨y, rfl, rfl, hrest, hfound, hown⟩
        · exact rfl
        · exact ⟨_, rfl, withFound_iff_holdsAnswers hid hrest, withFound_of_sessionsAgree hid hfound hown⟩

theorem HoldsAnswers.checkAgrees {t : RegTrace} (h : HoldsAnswers p.toSynceDevice t) : CheckAgrees p t := by
  intro val hval
  rw [← h.family val hval]

/-- Ways that go on after the same answers. -/
theorem transparentAfter_of_ok {aesEncrypt : AesEncrypt} {i i' : Inited} (h : (initOwn p).Runs t₀ (.ok i))
    (h' : (initShared p).Runs t₀ (.ok i')) : TransparentAfter aesEncrypt p t₀ ↔
      SessionsAgree aesEncrypt i.link.toLink i'.link.toLink i.phy i'.phy := by
  simp only [TransparentAfter, SessionsAgree, runs_bind_of_ok h, runs_bind_of_ok h']

/-- A way that cannot make the accesses of the other's initialisation. -/
theorem not_transparentAfter {aesEncrypt : AesEncrypt} (h : (initOwn p).Runs t₀ r₀)
    (hnone : ¬∃ r₁, (initShared p).Runs t₀ r₁) : ¬TransparentAfter aesEncrypt p t₀ := by
  intro htransparent
  have hown : (initOwn p >>= fun i => session aesEncrypt i.link.toLink i.phy []).Runs (t₀ ++ [])
      (r₀.map fun _ => []) := by
    cases r₀ with
    | error e => exact (runs_bind_of_error h).mpr ⟨rfl, rfl⟩
    | ok i => exact (runs_bind_of_ok h).mpr ⟨rfl, rfl⟩
  rcases (runs_bind).mp ((htransparent [] [] _).mp hown) with ⟨e, hrun, -⟩ | ⟨t₁, i', t₂, ht, hrun, rfl, -⟩
  · rw [List.append_nil] at hrun
    exact hnone ⟨_, hrun⟩
  · rw [List.append_nil, List.append_nil] at ht
    rw [ht] at hnone
    exact hnone ⟨_, hrun⟩

/-- Calls that are the same show that the structure holds the answers. -/
theorem holdsAnswers_of_transparent {aesEncrypt : AesEncrypt} {i : Inited} (h : (initOwn p).Runs t₀ (.ok i))
    (htransparent : TransparentAfter aesEncrypt p t₀) : HoldsAnswers p.toSynceDevice (accesses t₀) := by
  have hrun : ∃ r₁, (initShared p).Runs t₀ r₁ := by
    by_contra hnone
    exact not_transparentAfter h hnone htransparent
  obtain ⟨r₁, hr₁⟩ := hrun
  obtain ⟨i', rfl, hholds, hsame⟩ := (initShared_runs_iff h).2 r₁ hr₁
  exact hholds.mp (hsame aesEncrypt ((transparentAfter_of_ok h hr₁).mp htransparent))

end Init

/-- The caller's structure `p` is any, and so are the device's answers `t₀` to the initialisation.
If that fails, the shared one makes the same accesses and fails in the same way if and only if the
SyncE check comes out the same for the family in the structure. If it succeeds, all later calls show
the same accesses and results, for all answers, if and only if the structure holds already what the
answers say. -/
theorem shared_data_transparent_iff (aesEncrypt : AesEncrypt) (p : PhyData) {t₀ : Trace regSig.locking}
    {r₀ : Except Errno Inited} (h : (initOwn p).Runs t₀ r₀) :
    (∀ e, r₀ = .error e → (TransparentAfter aesEncrypt p t₀ ↔ CheckAgrees p (accesses t₀))) ∧
    ∀ i, r₀ = .ok i → (TransparentAfter aesEncrypt p t₀ ↔ HoldsAnswers p.toSynceDevice (accesses t₀)) := by
  obtain ⟨hruns, hends⟩ := initShared_runs_iff h
  constructor
  · intro e he
    subst he
    constructor
    · intro htransparent
      by_contra hcheck
      exact not_transparentAfter h (fun hrun => hcheck (hruns.mpr hrun)) htransparent
    · intro hcheck calls t r
      obtain ⟨r₁, hr₁⟩ := hruns.mp hcheck
      obtain rfl : r₁ = .error e := hends r₁ hr₁
      rw [runs_bind_of_error h, runs_bind_of_error hr₁]
  · intro i hi
    subst hi
    constructor
    · exact holdsAnswers_of_transparent h
    · intro hholds
      obtain ⟨r₁, hr₁⟩ := hruns.mp hholds.checkAgrees
      obtain ⟨i', rfl, hiff, -⟩ := hends r₁ hr₁
      refine (transparentAfter_of_ok h hr₁).mpr fun calls t r => ?_
      rw [hiff.mpr hholds, session_link]

/-! ## A PHY of the P34X family -/

/-- A structure of zeros, as the application hands it over. -/
def zeroPhy : PhyData where
  nrOfSas := 0
  family := .p31g
  phyAddr := 0
  macsecSupported := false
  ptpClock := 0
  gmacfBaseAddr := 0
  gmaclBaseAddr := 0
  pmBaseAddr := 0
  synceSupported := false
  modelNo := 0
  privData := false
  link := freshLink

/-- The accesses of an initialisation, where the PHY says P34X with SyncE and without MACsec. -/
def p34xAccesses : RegTrace := frontTrace 0x67C9 0xDC00 0 0 8 ++ [
  ⟨.mmdRead .vend1 sgmiiStat, .ok 0⟩, ⟨.phyRead stdCtrl, .ok 0⟩, ⟨.mmdRead .pmapmd pmaSpeedAbility, .ok 0⟩,
  ⟨.phyRead stdStat, .ok 0⟩, ⟨.phyRead stdAnAdv, .ok 0⟩, ⟨.mmdRead .an anegStat, .ok 0⟩,
  ⟨.phyRead stdStat, .ok 0⟩, ⟨.mmdRead .an anegMgbtAnCtrl, .ok 0⟩, ⟨.phyRead stdStat, .ok 0⟩,
  ⟨.mmdRead .pmapmd pmaCtrl1, .ok 0⟩, ⟨.phyRead stdCtrl, .ok 0⟩, ⟨.phyRead phyImask, .ok 0⟩,
  ⟨.phyWrite phyImask 0x200, .ok ()⟩]

def p34xInit : Trace regSig.locking := ⟨.lock, ()⟩ :: (p34xAccesses.map accEvent ++ [⟨.unlock, ()⟩])

theorem runs_p34xInit {p : PhyData} (hpriv : p.privData = false) : ∃ i, (initOwn p).Runs p34xInit (.ok i) := by
  have hbody : ∃ d, (initBody none p.link).Runs p34xAccesses (.ok (some d)) := by
    apply Exists.intro
    repeat refine ⟨_, _, rfl, ?_⟩
    exact ⟨rfl, rfl⟩
  obtain ⟨d, hd⟩ := hbody
  refine ⟨p.inited (some d), ?_⟩
  rw [initOwn, hpriv, gpy2xxInit_false]
  exact (runs_map).mpr ⟨_, (runs_locked).mpr ⟨_, rfl, hd⟩, rfl⟩

/-- A structure in which the application has put what such a PHY says. -/
def p34xPhy : PhyData := { zeroPhy with
  family := .p34x
  gmacfBaseAddr := 0xA32000
  gmaclBaseAddr := 0xA30000
  pmBaseAddr := 0xA38000
  synceSupported := true }

theorem holdsAnswers_p34xPhy : HoldsAnswers p34xPhy.toSynceDevice (accesses p34xInit) := by
  have hfamily : ∀ val, mmdAnswer .vend2 familyReg (accesses p34xInit) = some val → val = 8 :=
    fun val hval => (Option.some.inj hval).symm
  have hwd2 : ∀ wd2, phyAnswer stdPhyid2 (accesses p34xInit) = some wd2 → wd2 = 0xDC00 :=
    fun wd2 hval => (Option.some.inj hval).symm
  have hstat : ∀ stat, mmdAnswer .vend1 sgmiiStat (accesses p34xInit) = some stat → stat = 0 :=
    fun stat hval => (Option.some.inj hval).symm
  constructor
  · intro val hval
    rw [hfamily val hval]
    decide
  · intro val hval
    rw [hfamily val hval]
    decide
  · intro val wd2 hval hval2
    rw [hfamily val hval, hwd2 wd2 hval2]
    decide
  · intro stat hval
    rw [hstat stat hval]
    decide

theorem transparentAfter_p34xPhy : TransparentAfter (fun _ _ _ => 0) p34xPhy p34xInit := by
  obtain ⟨i, h⟩ := @runs_p34xInit p34xPhy rfl
  exact ((shared_data_transparent_iff (fun _ _ _ => 0) p34xPhy h).2 i rfl).mpr holdsAnswers_p34xPhy

/-- With a structure of zeros the shared initialisation leaves family, SyncE and base addresses there
as they were. -/
theorem not_sharedTransparent : ¬∀ aesEncrypt p t₀ r₀, (initOwn p).Runs t₀ r₀ → TransparentAfter aesEncrypt p t₀ := by
  intro htransparent
  obtain ⟨i, h⟩ := @runs_p34xInit zeroPhy rfl
  have hholds := holdsAnswers_of_transparent h (htransparent (fun _ _ _ => 0) zeroPhy p34xInit _ h)
  exact absurd (hholds.family 8 rfl) (by decide)

end Gpy2xx
