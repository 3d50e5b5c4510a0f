import MxlUtils.Lib.Shell

/- The image upgrade functions of the script vol_mgmt. The commands it runs are
   operations that answer with an exit status, or with their output; a UBI device is
   named by its volume, as the script finds it. The four functions for images that go
   to an MTD partition are one operation each. The dispatch at the end of the script
   runs the function named first and hides its status, so only `exit` is seen. -/
namespace VolMgmt
open Effect

inductive VolOp where
  | ubirmvol (vol : String)
  | ubimkvol (vol size : String) (volId : Option String)
  | createUbiNodes
  | ubiupdatevol (vol size : String)
  | ubootEnvSet (name value : String)
  | umount (dir : String)
  | upgradeMtd (image : String)
  | rootfsVolumes
  | mtdOf (vol : String)
deriving DecidableEq

/-- `rootfsVolumes` lists the volumes with rootfs in their names, `mtdOf` is a line of /proc/mtd. -/
abbrev volSig : Sig where
  Op := VolOp
  Ret
    | .rootfsVolumes => List String
    | .mtdOf _ => String
    | _ => Nat

def command (o : VolOp) : Sh volSig (volSig.Ret o) := Fallible.always (@Prog.op volSig o)

def ubirmvol (vol : String) : Sh volSig Nat := command (.ubirmvol vol)

def ubimkvol (vol size : String) (volId : Option String) : Sh volSig Nat :=
  command (.ubimkvol vol size volId)

def ubiupdatevol (vol size : String) : Sh volSig Nat := command (.ubiupdatevol vol size)

def ubootEnvSet (name value : String) : Sh volSig Nat := command (.ubootEnvSet name value)

/-! ## Volumes -/

def removeVol (vol : String) : Sh volSig Nat := ubirmvol vol

/-- The arguments are words: an empty one that is not quoted is none at all. -/
def createVol (args : List String) : Sh volSig Nat :=
  let volId := args.getD 2 ""
  (ubimkvol (args.getD 0 "") (args.getD 1 "") (if volId ≠ "" then some volId else none)).andThen
    (Sh.orElse (command .createUbiNodes) Sh.nothing)

def writeVolStdin (vol size : String) : Sh volSig Nat :=
  (Sh.test (vol ≠ "" && size ≠ "")).andThen do
    let _ ← removeVol vol
    let _ ← createVol [vol, size]
    ubiupdatevol vol size

/-- `awk '{ printf "%X\n", $1 }'` -/
def hexSize (size : String) : String :=
  String.ofList ((Nat.toDigits 16 (size.toNat?.getD 0)).map Char.toUpper)

inductive Image where
  | kernel
  | bootcore
  | rootfs
  | firmware
deriving DecidableEq

def Image.name : Image → String
  | .kernel => "kernel"
  | .bootcore => "bootcore"
  | .rootfs => "rootfs"
  | .firmware => "firmware"

/-! ## One volume for each image -/

/-- `[ $? -ne 0 ] && exit 1` -/
def failed (c : Nat) : Sh volSig Nat := (Sh.test (c ≠ 0)).andThen (Sh.exit 1)

def upgradeVolKernel (size : String) : Sh volSig Nat := do
  let _ ← removeVol "kernel"
  let _ ← createVol ["kernel", size]
  let c ← ubiupdatevol "kernel" size
  let _ ← failed c
  ubootEnvSet "f_kernel_size" (hexSize size)

/-- The test fails if the write did not: so does the function, but for the dispatch. -/
def upgradeVolBootcore (size : String) : Sh volSig Nat := do
  let _ ← removeVol "bootcore"
  let _ ← createVol ["bootcore", size]
  let c ← ubiupdatevol "bootcore" size
  failed c

def upgradeVolFirmware (size : String) : Sh volSig Nat := do
  let _ ← command (.umount "/firmware")
  let _ ← removeVol "firmware"
  let _ ← createVol ["firmware", size]
  let c ← ubiupdatevol "firmware" size
  failed c

/-- A variable as an unquoted argument. -/
def unquoted (s : String) : List String := if s = "" then [] else [s]

/-- The loop over the volumes found, with `active_vol` and `vol_id`; it returns `active_vol`. -/
def rootfsLoop (size : String) : List String → String → String → Sh volSig String
  | [], activeVol, _ => pure activeVol
  | volName :: names, activeVol, volId => do
    let (activeVol, volId) :=
      if volName = "rootfs" then ("rootfsB", "")
      else if volName = "rootfsB" then ("rootfs", "1")
      else (activeVol, volId)
    let _ ← removeVol activeVol
    let c ← createVol (unquoted activeVol ++ [size] ++ unquoted volId)
    if c = 0 then
      let c ← ubiupdatevol activeVol size
      let _ ← failed c
      pure activeVol
    else rootfsLoop size names activeVol volId

def upgradeVolRootfs (size : String) : Sh volSig Nat := do
  let names ← command .rootfsVolumes
  let activeVol ← rootfsLoop size names "" ""
  let volMtd ← command (.mtdOf activeVol)
  ubootEnvSet "rootfsmtd" ("/dev/mtdblock" ++ String.ofList (String.toList volMtd |>.drop 3))

/-- `upgrade_vol_$1 "$2"` -/
def upgradeVol (image : Image) (size : String) : Sh volSig Nat :=
  match image with
  | .kernel => upgradeVolKernel size
  | .bootcore => upgradeVolBootcore size
  | .rootfs => upgradeVolRootfs size
  | .firmware => upgradeVolFirmware size

/-! ## Two banks -/

inductive Bank where
  | A
  | B
deriving DecidableEq

def Bank.name : Bank → String
  | .A => "A"
  | .B => "B"

def Bank.other : Bank → Bank
  | .A => .B
  | .B => .A

def activeBankKey : List Char := "active_bank=".toList

/-- What follows the last `key`, and `d` if it does not occur. -/
def afterLast (key : List Char) (d : List Char) : List Char → List Char
  | [] => d
  | c :: cs => afterLast key (if key.isPrefixOf (c :: cs) then (c :: cs).drop key.length else d) cs

/-- The value of `active_bank` in the kernel command line: anything but A is taken for B. -/
def runningBank (cmdline : List Char) : Bank :=
  if (afterLast activeBankKey cmdline cmdline).takeWhile (· ≠ ' ') = ['A'] then .A else .B

/-- The variables of the boot loader that name the new bank. -/
def activate (new : Bank) : Sh volSig Nat := do
  let _ ← ubootEnvSet "active_bank" new.name
  if new = .B then ubootEnvSet "update_chk" "1" else ubootEnvSet "update_chk" "3"

def upgradeDualvolKernel (cmdline : List Char) (size : String) : Sh volSig Nat :=
  (Sh.test (size ≠ "")).andThen do
    let newActive := (runningBank cmdline).other
    let c ← writeVolStdin ("kernel" ++ newActive.name) size
    (Sh.test (c = 0)).andThen do
      let _ ← ubootEnvSet ("f_kernel_size" ++ newActive.name) (hexSize size)
      activate newActive

def upgradeDualvolBootcore (cmdline : List Char) (size : String) : Sh volSig Nat :=
  (Sh.test (size ≠ "")).andThen do
    let newActive := (runningBank cmdline).other
    let c ← writeVolStdin ("bootcore" ++ newActive.name) size
    (Sh.test (c = 0)).andThen (activate newActive)

def upgradeDualvolRootfs (cmdline : List Char) (size : String) : Sh volSig Nat :=
  (Sh.test (size ≠ "")).andThen (writeVolStdin ("rootfs" ++ (runningBank cmdline).other.name) size)

def upgradeDualvolFirmware (cmdline : List Char) (size : String) : Sh volSig Nat :=
  (Sh.test (size ≠ "")).andThen (writeVolStdin ("firmware" ++ (runningBank cmdline).other.name) size)

/-- `upgrade_dualvol_$1 "$2"` -/
def upgradeDualvol (cmdline : List Char) (image : Image) (size : String) : Sh volSig Nat :=
  match image with
  | .kernel => upgradeDualvolKernel cmdline size
  | .bootcore => upgradeDualvolBootcore cmdline size
  | .rootfs => upgradeDualvolRootfs cmdline size
  | .firmware => upgradeDualvolFirmware cmdline size

/-! ## The script -/

/-- The third arguments for which the image goes to an MTD partition. -/
def mtdImages : List String := ["U-Boot", "ubootenv", "gphyfw", "systemsw"]

/-- `upgrade_vol_stdin` and `upgrade_dualvol_stdin`, for the function they end in. -/
def upgradeStdin (upgrade : Sh volSig Nat) (size image : String) : Sh volSig Nat :=
  (Sh.test (size ≠ "")).andThen
    (if image ∈ mtdImages then command (.upgradeMtd image) else upgrade)

/-- How the script is called: for a function itself, or with the third argument of `*_stdin`. -/
inductive Via where
  | direct
  | stdin (image : String)
deriving DecidableEq

structure Invocation where
  dual : Bool
  image : Image
  size : String
  via : Via

def Invocation.upgrade (i : Invocation) (cmdline : List Char) : Sh volSig Nat :=
  if i.dual then upgradeDualvol cmdline i.image i.size else upgradeVol i.image i.size

/-- `$volcmd $@` -/
def Invocation.command (i : Invocation) (cmdline : List Char) : Sh volSig Nat :=
  match i.via with
  | .direct => i.upgrade cmdline
  | .stdin image => upgradeStdin (i.upgrade cmdline) i.size image

/-- `$volcmd $@ || >&-`, the last command of the script. -/
def Invocation.run (i : Invocation) (cmdline : List Char) : Prog volSig Nat :=
  Sh.script (Sh.orElse (i.command cmdline) Sh.nothing)

/-! ## Runs of a command -/

variable {α : Type} {t : Trace volSig}

theorem runs_command_bind {o : VolOp} {f : volSig.Ret o → Sh volSig α} {q : Except Nat α} :
    Fallible.Runs (command o >>= f) t q ↔ ∃ a t', t = ⟨o, a⟩ :: t' ∧ Fallible.Runs (f a) t' q :=
  Fallible.runs_always_bind

theorem runs_command {o : VolOp} {q : Except Nat (volSig.Ret o)} :
    Fallible.Runs (command o) t q ↔ ∃ a, t = [⟨o, a⟩] ∧ q = .ok a := by
  rw [command, Fallible.runs_always]
  constructor
  · rintro ⟨a, ⟨b, t', rfl, rfl, rfl⟩, rfl⟩
    exact ⟨_, rfl, rfl⟩
  · rintro ⟨a, rfl, rfl⟩
    exact ⟨a, ⟨a, [], rfl, rfl, rfl⟩, rfl⟩

theorem returns_command (o : VolOp) : Sh.Returns (command o) := .always _

theorem returns_createVol (args : List String) : Sh.Returns (createVol args) :=
  .andThen (returns_command _) (.orElse (returns_command _) (.pure 0))

end VolMgmt
