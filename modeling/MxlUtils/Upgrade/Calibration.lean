import MxlUtils.Lib.Directory

/- `update_calibration` on NAND: the partition is an archive of files, which is unpacked into a
   directory, packed again with the new file, and written over. No command's status is read, so the
   partition is erased and the status is 0 whatever came before. A command that fails leaves
   something of its own; the commands on the directory itself (rm, mkdir, cd) do what they say. -/
namespace Calibration
open Directory

abbrev Name := List Char

/-- What is on the partition, or in a file that is read as an archive. `C` is the contents of files. -/
inductive Image (C : Type) where
  | archive (files : List (Name × C))
  | blank
  | garbage

/-- A command succeeds, or fails and leaves something. -/
inductive Outcome (α : Type) where
  | ok
  | failed (left : α)

/-- How the commands end. -/
structure Outcomes (C : Type) where
  nanddump : Outcome (Image C)
  untar : Outcome (List (Name × C))
  cp : Outcome Unit
  flashErase : Outcome (Image C)
  tar : Outcome (Option (Image C))
  nandwrite : Outcome (Image C)

/-- The partition, whether it was erased, and in `/tmp/_calibration` the file `calibration.gz` as an
archive, and the other files. -/
structure System (C : Type) where
  part : Image C
  erased : Bool
  image : Option (Image C)
  dir : List (Name × C)

variable {C : Type}

def gz : Name := ['.', 'g', 'z']

/-- `calibration.gz` -/
def imageName : Name := ['c', 'a', 'l', 'i', 'b', 'r', 'a', 't', 'i', 'o', 'n', '.', 'g', 'z']

/-- A name that `*.gz` is expanded to. -/
def globbed (n : Name) : Bool := gz <:+ n ∧ n.head? ≠ some '.' ∧ '/' ∉ n

/-- tar does not put the archive it writes into itself. -/
def packed (n : Name) : Bool := globbed n ∧ n ≠ imageName

/-! ## The commands -/

namespace System

variable (o : Outcomes C) (s : System C)

/-- `rm -rf /tmp/_calibration; mkdir -p /tmp/_calibration` -/
def clear : System C := { s with image := none, dir := [] }

/-- `nanddump -q /dev/$partname > calibration.gz` -/
def nanddump : Nat × System C :=
  match o.nanddump with
  | .ok => (0, { s with image := some s.part })
  | .failed left => (1, { s with image := some left })

/-- `tar xzf calibration.gz` -/
def untar : Nat × System C :=
  match o.untar, s.image with
  | .failed left, _ => (1, { s with dir := left })
  | .ok, some (.archive files) => (0, { s with dir := files })
  | .ok, _ => (1, s)

/-- `rm -f calibration.gz` -/
def rmImage : System C := { s with image := none, dir := only (· ≠ imageName) s.dir }

/-- `cp -f "$2" /tmp/_calibration/$1.gz` -/
def cp (name : Name) (new : C) : Nat × System C :=
  match o.cp with
  | .ok => (0, { s with dir := (name ++ gz, new) :: s.dir })
  | .failed _ => (1, s)

/-- `flash_erase /dev/$partname 0 0` -/
def flashErase : Nat × System C :=
  match o.flashErase with
  | .ok => (0, { s with part := .blank, erased := true })
  | .failed left => (1, { s with part := left, erased := true })

/-- `tar -czf calibration.gz *.gz`, which has no file to pack where the pattern matches none. -/
def tar : Nat × System C :=
  match o.tar with
  | .failed left => (1, { s with image := left })
  | .ok =>
    if only globbed s.dir = [] then (1, s)
    else (0, { s with image := some (.archive (only packed s.dir)) })

/-- `nandwrite -q -p /dev/$partname calibration.gz`: only blank pages take what is written. -/
def nandwrite : Nat × System C :=
  match o.nandwrite, s.image, s.part with
  | .failed left, _, _ => (1, { s with part := left })
  | .ok, none, _ => (1, s)
  | .ok, some image, .blank => (0, { s with part := image })
  | .ok, some _, _ => (0, { s with part := .garbage })

end System

/-! ## The function -/

/-- `fetch_partition` where there is no eMMC: the name in the only line of /proc/mtd with the word
calibration. -/
def fetchPartition (mtds : List Name) : Option Name :=
  match mtds with
  | [partname] => if partname = [] then none else some partname
  | _ => none

/-- `update_calibration name file`, with the contents of the file. -/
def updateCalibration (o : Outcomes C) (mtds : List Name) (name file : Name) (new : C) (s : System C) :
    Nat × System C :=
  match fetchPartition mtds with
  | none => (1, s)
  | some _ =>
    if name ≠ [] ∧ file ≠ [] then
      let s := s.clear
      let (_, s) := s.nanddump o
      let (_, s) := s.untar o
      let s := s.rmImage
      let (_, s) := s.cp o name new
      let (_, s) := s.flashErase o
      let (_, s) := s.tar o
      let (_, s) := s.nandwrite o
      (0, s.clear)
    else (0, s)

/-! ## What the function is for -/

/-- The files on a partition that can be read; a blank one has none. -/
def filesOf : Image C → Option (List (Name × C))
  | .archive files => some files
  | .blank => some []
  | .garbage => none

/-- An archive of these files. -/
def Holds (p : Image C) (files : List (Name × C)) : Prop := ∃ next, p = .archive next ∧ Same next files

/-- Before the call. -/
def System.start (p : Image C) : System C := ⟨p, false, none, []⟩

section Update
variable (o : Outcomes C) (mtds : List Name) (name file : Name) (new : C) (p : Image C)

/-- What the dump and tar leave in the directory. -/
def unpacked : List (Name × C) :=
  match o.untar, o.nanddump with
  | .failed left, _ => left
  | .ok, .failed (.archive files) => files
  | .ok, .failed _ => []
  | .ok, .ok => (filesOf p).getD []

/-- The directory gets the new file, and of the others those that are packed are all there were. -/
structure Collected (prev : List (Name × C)) : Prop where
  named : packed (name ++ gz) = true
  copied : o.cp = .ok ∨ (unpacked o p).lookup (name ++ gz) = some new
  others : ∀ n, n ≠ name ++ gz → prev.lookup n = if packed n then (unpacked o p).lookup n else none

/-- What is in the directory when it is packed. -/
def prepared : List (Name × C) :=
  match o.cp with
  | .ok => (name ++ gz, new) :: only (· ≠ imageName) (unpacked o p)
  | .failed _ => only (· ≠ imageName) (unpacked o p)

/-- The partition is written with an archive of all files: erased, packed and written without a
failure; or a command that failed has left it so, one that writes, one that packs, or one that
erases where there is then nothing to write. -/
inductive Written (prev : List (Name × C)) : Prop
  | written : o.nandwrite = .ok → o.flashErase = .ok ∨ o.flashErase = .failed .blank → o.tar = .ok →
      Collected o name new p prev → Written prev
  | leftByWrite {left : Image C} : o.nandwrite = .failed left → Holds left ((name ++ gz, new) :: prev) →
      Written prev
  | leftByTar {left : Image C} : o.nandwrite = .ok → o.flashErase = .ok ∨ o.flashErase = .failed .blank →
      o.tar = .failed (some left) → Holds left ((name ++ gz, new) :: prev) → Written prev
  | leftByErase {left : Image C} : o.nandwrite = .ok → o.flashErase = .failed left →
      o.tar = .failed none ∨ o.tar = .ok ∧ only globbed (prepared o name new p) = [] →
      Holds left ((name ++ gz, new) :: prev) → Written prev

end Update

section Steps
variable {o : Outcomes C} {mtds : List Name} {name file : Name} {new : C} {p : Image C}

/-- The system when the partition is erased. -/
def beforeErase (o : Outcomes C) (name : Name) (new : C) (p : Image C) : System C :=
  ((((((System.start p).clear.nanddump o).2.untar o).2.rmImage).cp o name new).2)

theorem updateCalibration_eq {partname : Name} (hfetch : fetchPartition mtds = some partname)
    (hargs : name ≠ [] ∧ file ≠ []) : updateCalibration o mtds name file new (.start p) =
      (0, (((((beforeErase o name new p).flashErase o).2.tar o).2.nandwrite o).2.clear)) := by
  rw [updateCalibration, hfetch]
  exact if_pos hargs

/-- Whatever the commands come to, the partition is erased and the status is 0. -/
theorem updateCalibration_erases {partname : Name} (hfetch : fetchPartition mtds = some partname)
    (hargs : name ≠ [] ∧ file ≠ []) : (updateCalibration o mtds name file new (.start p)).1 = 0 ∧
      (updateCalibration o mtds name file new (.start p)).2.erased = true := by
  have herase (s : System C) : (s.flashErase o).2.erased = true := by
    unfold System.flashErase
    cases o.flashErase <;> rfl
  have htar (s : System C) : (s.tar o).2.erased = s.erased := by
    unfold System.tar
    cases o.tar with
    | failed left => rfl
    | ok =>
      dsimp only
      split <;> rfl
  have hwrite (s : System C) : (s.nandwrite o).2.erased = s.erased := by
    unfold System.nandwrite
    split <;> rfl
  rw [updateCalibration_eq hfetch hargs]
  exact ⟨rfl, (hwrite _).trans ((htar _).trans (herase _))⟩

end Steps

end Calibration
