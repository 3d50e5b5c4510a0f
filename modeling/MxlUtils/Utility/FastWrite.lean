import MxlUtils.Lib.Padding
import MxlUtils.Gphy.Shared.Init

/- The utility that writes a firmware file to the flash. It talks to the C library
   about the file and to the API about the PHY. The file may answer a read with fewer
   bytes than asked for, and an error is looked up in `errno` after the file has been
   closed; the PHY may answer anything. Progress output and delays are left out. -/
namespace Gpy2xx
open Effect Effect.Lock Padding

/-! ## What the utility calls -/

/-- The C library. -/
inductive FileOp where
  | fopen
  | ftell
  | fread (n : Nat)
  | fclose
  | errno

/-- A file that cannot be opened sets `errno` to a positive number, of which the negative is given
here. -/
@[reducible] def FileOp.Ret : FileOp → Type
  | .fopen => Except Errno Unit
  | .ftell => Nat
  | .fread _ => List (BitVec 8)
  | .fclose => Unit
  | .errno => Int

@[reducible] def fileSig : Sig := ⟨FileOp, FileOp.Ret⟩

/-- The API. -/
inductive ApiOp where
  | init
  | fwFrwInit (phy : Gpy211Device) (timeout : BitVec 32)
  | fwFwrPage (buf : Bytes 256) (timeout : BitVec 32)
  | fwFrwUninit

@[reducible] def ApiOp.Ret : ApiOp → Type
  | .init => Except Errno Gpy211Device
  | .fwFrwInit _ _ | .fwFwrPage _ _ | .fwFrwUninit => Except Errno Unit

@[reducible] def apiSig : Sig := ⟨ApiOp, ApiOp.Ret⟩

@[reducible] def hostSig : Sig := fileSig.sum apiSig

def file (o : FileOp) : Prog hostSig o.Ret := .call (.inl o) .done

def api (o : ApiOp) : Prog hostSig o.Ret := .call (.inr o) .done

/-! ## `fw_fast_write` -/

/-- `FW_FWR_DEF_TIMEOUT` -/
def fwFwrDefTimeout : BitVec 32 := 5000

/-- Close the file and return. -/
def closing (ret : Int) : Prog hostSig Int := do
  file .fclose
  pure ret

/-- The buffer, set to `0xFF` before the bytes are read into it. -/
def pageOf (bytes : List (BitVec 8)) : Bytes 256 := fun i => bytes.getD i 0xFF

/-- The loop. It comes to `RESET_PHY` with `ret2`, or it returns in the middle. -/
def writePages (filesize : Nat) : Prog hostSig (Except Int Int) :=
  if filesize = 0 then pure (.ok 0)
  else do
    let wrsize := min filesize 256
    let bytes ← file (.fread wrsize)
    -- no byte at all and too few bytes differ in the message only
    if bytes.length ≠ wrsize then
      file .fclose
      let errno ← file .errno
      pure (.error (-errno))
    else
      match ← api (.fwFwrPage (pageOf bytes) fwFwrDefTimeout) with
      | .error e => pure (.ok e.code)
      | .ok () => writePages (filesize - wrsize)
termination_by filesize
decreasing_by omega

/-- From `RESET_PHY` on. -/
def resetPhy (ret2 : Int) : Prog hostSig Int := do
  match ← api .fwFrwUninit with
  | .error e => closing e.code
  | .ok () => closing ret2

def fwFastWrite : Prog hostSig Int := do
  match ← file .fopen with
  | .error e => pure e.code
  | .ok () =>
    let filesize := BitVec.ofNat 32 (← file .ftell)
    match ← api .init with
    | .error e => closing e.code
    | .ok phy =>
      match ← api (.fwFrwInit phy fwFwrDefTimeout) with
      | .error e => closing e.code
      | .ok () =>
        match ← writePages filesize.toNat with
        | .error ret => pure ret
        | .ok ret2 => resetPhy ret2

/-! ## The file and the PHY -/

/-- A file of these bytes, read from an offset on. What is read may be cut short anywhere. -/
def fileDev (bytes : List (BitVec 8)) : Dev fileSig Nat
  | off, ⟨.ftell, size⟩, off' => size = bytes.length ∧ off' = off
  | off, ⟨.fread n, got⟩, off' => got <+: (bytes.drop off).take n ∧ off' = off + got.length
  | off, _, off' => off' = off

/-- The calls of the API as programs on the registers of the PHY that `p` describes. -/
def apiCall (p : PhyData) : (o : ApiOp) → Prog regSig.locking o.Ret
  | .init => ((·.phy.toGpy211Device) <$> initOwn p).run
  | .fwFrwInit phy timeout => (gpy2xxFwFrwInit phy timeout).run
  | .fwFwrPage buf timeout => (gpy2xxFwFwrPage buf timeout).run
  | .fwFrwUninit => gpy2xxFwFrwUninit.run

/-! ## What a run shows -/

/-- An answer that ends the run. -/
def ends : Event hostSig → Bool
  | ⟨.inl .fopen, .error _⟩ => true
  | ⟨.inl (.fread n), got⟩ => got.length ≠ n
  | ⟨.inr .init, .error _⟩ => true
  | ⟨.inr (.fwFrwInit _ _), .error _⟩ => true
  | ⟨.inr (.fwFwrPage _ _), .error _⟩ => true
  | ⟨.inr .fwFrwUninit, .error _⟩ => true
  | _ => false

/-- A page passed to the API, and how that ended. -/
def pageCall : Event hostSig → Option (Bytes 256 × Except Errno Unit)
  | ⟨.inr (.fwFwrPage buf _), r⟩ => some (buf, r)
  | _ => none

def pages (t : Trace hostSig) : List (Bytes 256 × Except Errno Unit) := t.filterMap pageCall

/-- The pages one after the other. -/
def sentBytes (t : Trace hostSig) : List (BitVec 8) := (pages t).flatMap fun p => List.ofFn p.1

theorem pages_append (t u : Trace hostSig) : pages (t ++ u) = pages t ++ pages u :=
  List.filterMap_append

theorem sentBytes_append (t u : Trace hostSig) : sentBytes (t ++ u) = sentBytes t ++ sentBytes u := by
  rw [sentBytes, pages_append, List.flatMap_append, ← sentBytes, ← sentBytes]

theorem length_sentBytes (t : Trace hostSig) : (sentBytes t).length = 256 * (pages t).length := by
  rw [sentBytes]
  induction pages t with
  | nil => rfl
  | cons p ps ih =>
    rw [List.flatMap_cons, List.length_append, ih, List.length_ofFn, List.length_cons]
    omega

/-- A round of the loop that goes on: the read is complete, the page is accepted. -/
def goesOn : Event hostSig → Bool
  | ⟨.inl (.fread n), got⟩ => got.length = n
  | ⟨.inr (.fwFwrPage _ _), .ok _⟩ => true
  | _ => false

theorem ends_of_goesOn {e : Event hostSig} (h : goesOn e) : ¬ends e := by
  obtain ⟨o, r⟩ := e
  rcases o with (_ | _ | n | _ | _) | (_ | ⟨phy, τ⟩ | ⟨buf, τ⟩ | _)
  case inl.fread => simpa [goesOn, ends] using h
  case inr.fwFwrPage =>
    cases r with
    | error e => simp [goesOn] at h
    | ok u => simp [ends]
  all_goals simp [goesOn] at h

/-- How the loop ends. -/
inductive PagesEnd : Trace hostSig → Except Int Int → Prop where
  | done {t : Trace hostSig} (h : ∀ e ∈ t, goesOn e) : PagesEnd t (.ok 0)
  | page {t : Trace hostSig} (buf : Bytes 256) (e : Errno) (h : ∀ e ∈ t, goesOn e) :
      PagesEnd (t ++ [⟨.inr (.fwFwrPage buf fwFwrDefTimeout), .error e⟩]) (.ok e.code)
  | read {t : Trace hostSig} (n : Nat) (got : List (BitVec 8)) (errno : Int) (h : ∀ e ∈ t, goesOn e)
      (hgot : got.length ≠ n) :
      PagesEnd (t ++ [⟨.inl (.fread n), got⟩, ⟨.inl .fclose, ()⟩, ⟨.inl .errno, errno⟩])
        (.error (-errno))

theorem PagesEnd.cons {t : Trace hostSig} {x : Except Int Int} (h : PagesEnd t x) {e : Event hostSig}
    (he : goesOn e) : PagesEnd (e :: t) x := by
  have hcons {t : Trace hostSig} (ht : ∀ e ∈ t, goesOn e) : ∀ e' ∈ e :: t, goesOn e' := by
    simpa [he] using ht
  cases h with
  | done h => exact .done (hcons h)
  | page buf e h => exact .page buf e (hcons h)
  | read n got errno h hgot => exact .read n got errno (hcons h) hgot

/-- A full read of at most a page is the page after padding. -/
theorem ofFn_pageOf {bytes : List (BitVec 8)} (hpos : 0 < bytes.length) (hle : bytes.length ≤ 256) :
    List.ofFn (pageOf bytes) = padTo 256 0xFF bytes := by
  rw [padTo_of_length_le hpos hle]
  apply List.ext_getElem
  · rw [List.length_ofFn, List.length_append, List.length_replicate]
    omega
  · intro i h₁ h₂
    rw [List.getElem_ofFn, pageOf, List.getD_eq_getElem?_getD]
    by_cases h : i < bytes.length
    · simp [List.getElem_append_left, h]
    · rw [List.getElem_append_right (by omega), List.getElem_replicate]
      simp [h]

/-- The full read of a round takes the first page off what is left of the file. -/
theorem padTo_left {bytes got : List (BitVec 8)} {filesize off : Nat} (hpos : filesize ≠ 0)
    (hgot : got <+: (bytes.drop off).take (min filesize 256)) (hfull : got.length = min filesize 256) :
    padTo 256 0xFF ((bytes.drop off).take filesize) = List.ofFn (pageOf got) ++
      padTo 256 0xFF ((bytes.drop (off + got.length)).take (filesize - min filesize 256)) := by
  have htake : got = ((bytes.drop off).take filesize).take 256 := by
    rw [List.take_take, Nat.min_comm]
    apply hgot.eq_of_length_le
    rw [hfull, List.length_take]
    omega
  have hdrop : ((bytes.drop off).take filesize).drop 256 =
      (bytes.drop (off + got.length)).take (filesize - min filesize 256) := by
    rw [List.drop_take, List.drop_drop, hfull]
    by_cases h : 256 ≤ filesize
    · rw [Nat.min_eq_right h]
    · rw [Nat.sub_eq_zero_of_le (by omega), Nat.sub_eq_zero_of_le (by omega), List.take_zero,
        List.take_zero]
  rw [padTo_take_append_drop, ← htake, hdrop, ofFn_pageOf (by omega) (by omega)]

/-- One round. -/
theorem runs_writePages {filesize : Nat} {t : Trace hostSig} {x : Except Int Int} (hpos : filesize ≠ 0)
    (hrun : (writePages filesize).Runs t x) :
    ∃ got : List (BitVec 8),
      (got.length ≠ min filesize 256 ∧ ∃ errno : Int,
        t = [⟨.inl (.fread (min filesize 256)), got⟩, ⟨.inl .fclose, ()⟩, ⟨.inl .errno, errno⟩] ∧
        x = .error (-errno)) ∨
      (got.length = min filesize 256 ∧ ((∃ e,
        t = [⟨.inl (.fread (min filesize 256)), got⟩,
          ⟨.inr (.fwFwrPage (pageOf got) fwFwrDefTimeout), .error e⟩] ∧ x = .ok e.code) ∨
      ∃ u, t = ⟨.inl (.fread (min filesize 256)), got⟩ ::
          ⟨.inr (.fwFwrPage (pageOf got) fwFwrDefTimeout), .ok ()⟩ :: u ∧
        (writePages (filesize - min filesize 256)).Runs u x)) := by
  rw [writePages, if_neg hpos] at hrun
  obtain ⟨got, t, rfl, hrun⟩ := hrun
  change Prog.Runs (if got.length ≠ min filesize 256 then _ else _) t x at hrun
  refine ⟨got, ?_⟩
  by_cases hshort : got.length = min filesize 256
  · rw [if_neg (not_not.mpr hshort)] at hrun
    obtain ⟨c, u, rfl, hrun⟩ := hrun
    cases c with
    | error e =>
      obtain ⟨rfl, rfl⟩ := hrun
      exact .inr ⟨hshort, .inl ⟨e, rfl, rfl⟩⟩
    | ok _ => exact .inr ⟨hshort, .inr ⟨u, rfl, hrun⟩⟩
  · rw [if_pos hshort] at hrun
    obtain ⟨_, _, rfl, errno, _, rfl, rfl, rfl⟩ := hrun
    exact .inl ⟨hshort, errno, rfl, rfl⟩

/-- One round after the other. What has been sent is the beginning of the padded bytes, cut at a
page; it is all of them if the loop comes to its end. -/
theorem pagesEnd_writePages {bytes : List (BitVec 8)} {filesize off off' : Nat} {t : Trace hostSig}
    {x : Except Int Int} (hrun : (writePages filesize).Runs t x)
    (hpath : (fileDev bytes).onLeft.Path off t off') :
    PagesEnd t x ∧
    sentBytes t = (padTo 256 0xFF ((bytes.drop off).take filesize)).take (256 * (pages t).length) ∧
    ((∀ e ∈ t, goesOn e) → sentBytes t = padTo 256 0xFF ((bytes.drop off).take filesize)) := by
  induction filesize using Nat.strong_induction_on generalizing off t with
  | _ filesize ih =>
    by_cases hzero : filesize = 0
    · rw [writePages, if_pos hzero] at hrun
      obtain ⟨rfl, rfl⟩ := hrun
      rw [hzero, List.take_zero, padTo_nil]
      exact ⟨.done (by simp), rfl, fun _ => rfl⟩
    · obtain ⟨got, ⟨hshort, errno, rfl, rfl⟩ | ⟨hfull, hpage⟩⟩ := runs_writePages hzero hrun
      · refine ⟨.read (t := []) _ got errno (by simp) hshort, rfl, ?_⟩
        intro h
        simpa [goesOn] using h ⟨.inl .fclose, ()⟩ (by simp)
      · have hread : goesOn ⟨.inl (.fread (min filesize 256)), got⟩ := by simpa [goesOn] using hfull
        rcases hpage with ⟨e, rfl, rfl⟩ | ⟨u, rfl, hnext⟩
        · obtain ⟨_, ⟨hgot, rfl⟩, -⟩ := hpath
          have hsent : sentBytes [⟨.inl (.fread (min filesize 256)), got⟩,
              ⟨.inr (.fwFwrPage (pageOf got) fwFwrDefTimeout), .error e⟩] = List.ofFn (pageOf got) :=
            List.append_nil _
          refine ⟨.page (t := [_]) (pageOf got) e (by simpa using hread), ?_, ?_⟩
          · rw [hsent, padTo_left hzero hgot hfull]
            exact (List.take_left' List.length_ofFn).symm
          · intro h
            simpa [goesOn] using h ⟨.inr (.fwFwrPage (pageOf got) fwFwrDefTimeout), .error e⟩ (by simp)
        · obtain ⟨_, ⟨hgot, rfl⟩, _, rfl, hpath⟩ := hpath
          obtain ⟨hend, hcut, hall⟩ := ih (filesize - min filesize 256) (by omega) hnext hpath
          have hsent : sentBytes (⟨.inl (.fread (min filesize 256)), got⟩ ::
              ⟨.inr (.fwFwrPage (pageOf got) fwFwrDefTimeout), .ok ()⟩ :: u) =
              List.ofFn (pageOf got) ++ sentBytes u := rfl
          have hcount : (pages (⟨.inl (.fread (min filesize 256)), got⟩ ::
              ⟨.inr (.fwFwrPage (pageOf got) fwFwrDefTimeout), .ok ()⟩ :: u)).length =
              (pages u).length + 1 := rfl
          rw [hsent, hcount, padTo_left hzero hgot hfull]
          refine ⟨(hend.cons rfl).cons hread, ?_, ?_⟩
          · have hlen : 256 * ((pages u).length + 1) =
                (List.ofFn (pageOf got)).length + 256 * (pages u).length := by
              rw [List.length_ofFn]
              omega
            rw [hlen, List.take_length_add_append, ← hcut]
          · intro h
            rw [hall fun e he => h e (by simp [he])]

end Gpy2xx
