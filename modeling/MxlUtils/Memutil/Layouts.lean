import MxlUtils.Memutil.Safety

/- What a reader finds in the two layouts of a dump. Each line, or row, begins with an
   address, and each cell or blank of it stands for the next unit. The list of words that
   the lines show is the requested range; the table shows the same words only if the range
   begins at one of them. -/
namespace Memutil
open Window

variable {P : Platform} {V : View} {s : Settings} {stop blank : Nat → Bool} {first units : Nat}

/-- The addresses and values that a run prints, if it reads nothing outside. `address` is that of the
next cell. -/
def shown (V : View) : BitVec 32 → List Event → Option (List (BitVec 32 × BitVec 32))
  | _, [] => some []
  | address, .read pos :: rest => if V.inside pos then shown V address rest else none
  | _, .label address :: rest => shown V address rest
  | address, .blank :: rest => shown V (address + BitVec.ofNat 32 V.width) rest
  | address, .cell _ value :: rest => (shown V (address + BitVec.ofNat 32 V.width) rest).map ((address, value) :: ·)
  | address, _ :: rest => shown V address rest

section Shown
variable (address : BitVec 32) (rest : List Event)

theorem shown_read (pos : Nat) :
    shown V address (.read pos :: rest) = if V.inside pos then shown V address rest else none := rfl

theorem shown_label (label : BitVec 32) : shown V address (.label label :: rest) = shown V label rest := rfl

theorem shown_blank :
    shown V address (.blank :: rest) = shown V (address + BitVec.ofNat 32 V.width) rest := rfl

theorem shown_cell (pos : Nat) (value : BitVec 32) : shown V address (.cell pos value :: rest) =
    (shown V (address + BitVec.ofNat 32 V.width) rest).map ((address, value) :: ·) := rfl

theorem shown_newline : shown V address (.newline :: rest) = shown V address rest := rfl

end Shown

/-- The units from the `k`th on, with their addresses: those that are not left blank. -/
def entries (V : View) (base : BitVec 32) (first : Nat) (blank : Nat → Bool) (k n : Nat) : List (BitVec 32 × BitVec 32) :=
  ((List.range' k n).filter fun k => !blank (first + k * V.width)).map fun k =>
    (base + BitVec.ofNat 32 (k * V.width), V.load (first + k * V.width))

theorem entries_succ (V : View) (base : BitVec 32) (first : Nat) (blank : Nat → Bool) (k n : Nat) :
    entries V base first blank k (n + 1) =
      if blank (first + k * V.width) then entries V base first blank (k + 1) n
      else (base + BitVec.ofNat 32 (k * V.width), V.load (first + k * V.width)) :: entries V base first blank (k + 1) n := by
  rw [entries, List.range'_succ, List.filter_cons]
  cases blank (first + k * V.width) <;> rfl

theorem shown_access (address : BitVec 32) (pos : Nat) (rest : BitVec 32 → List Event) (hinside : V.inside pos = true) :
    shown V address (V.access pos rest) = shown V address (rest (V.load pos)) := by
  rw [View.access, shown_read, if_pos hinside, if_pos hinside]

theorem shown_lines {address : Nat → BitVec 32} {at' : Nat → Nat} {base : BitVec 32} (n i : Nat) (next : BitVec 32)
    (haddress : ∀ i, address i = base + BitVec.ofNat 32 (i * V.width)) (hat : ∀ i, at' i = first + i * V.width)
    (hinside : ∀ k, i ≤ k → k < i + n → V.inside (first + k * V.width) = true) :
    shown V next (lines V address at' n i) = some (entries V base first (fun _ => false) i n) := by
  induction n generalizing i next with
  | zero => rfl
  | succ n ih =>
    rw [lines, hat, shown_access _ _ _ (hinside i (Nat.le_refl _) (by omega)), shown_label, shown_cell, shown_newline,
      ih (i + 1) _ (fun k hk hkn => hinside k (by omega) (by omega)), entries_succ, haddress]
    rfl

theorem address_next (base : BitVec 32) (width k : Nat) :
    base + BitVec.ofNat 32 (k * width) + BitVec.ofNat 32 width = base + BitVec.ofNat 32 ((k + 1) * width) := by
  rw [BitVec.add_assoc, ← BitVec.ofNat_add, Nat.succ_mul]

/-- A row from the `k`th unit on. -/
theorem shown_cells {rest : Bool → List Event} {base : BitVec 32} (j k : Nat) (hk : k ≤ units)
    (hinside : ∀ k < units, V.inside (first + k * V.width) = true)
    (hstop : ∀ k, stop (first + k * V.width) = decide (units ≤ k)) (hdone : ∀ next, shown V next (rest true) = some [])
    (hmore : k + j ≤ units → ∀ next,
      shown V next (rest false) = some (entries V base first blank (k + j) (units - (k + j)))) :
    shown V (base + BitVec.ofNat 32 (k * V.width)) (cells V stop blank rest j (first + k * V.width)) =
      some (entries V base first blank k (units - k)) := by
  induction j generalizing k with
  | zero => exact hmore hk _
  | succ j ih =>
    rw [cells, hstop k]
    by_cases hend : units ≤ k
    · rw [if_pos (decide_eq_true hend), hdone, Nat.sub_eq_zero_of_le hend]
      rfl
    · have hnext : first + k * V.width + V.width = first + (k + 1) * V.width := by rw [Nat.succ_mul, Nat.add_assoc]
      have hleft : units - k = (units - (k + 1)) + 1 := by omega
      have hrow := ih (k + 1) (by omega) fun hle next => by
        have hsame : k + 1 + j = k + (j + 1) := by omega
        rw [hsame] at hle ⊢
        exact hmore hle next
      rw [if_neg (by simpa using hend), shown_access _ _ _ (hinside k (by omega)), hnext, hleft, entries_succ]
      cases blank (first + k * V.width) with
      | true =>
        rw [if_pos rfl, if_pos rfl, shown_blank, address_next]
        exact hrow
      | false =>
        rw [if_neg (by decide), if_neg (by decide), shown_cell, address_next, hrow]
        rfl

theorem shown_rows {perRow : Nat} {base : BitVec 32} (hrow : perRow * V.width = 16) (n k : Nat) (next : BitVec 32)
    (hk : k ≤ units) (hsize : first + k * V.width ≤ V.size) (hn : V.size < first + k * V.width + 16 * n)
    (hinside : ∀ k < units, V.inside (first + k * V.width) = true)
    (hstop : ∀ k, stop (first + k * V.width) = decide (units ≤ k)) :
    shown V next (rows V perRow stop blank n (base + BitVec.ofNat 32 (k * V.width)) (first + k * V.width)) =
      some (entries V base first blank k (units - k)) := by
  induction n generalizing k next with
  | zero => omega
  | succ n ih =>
    have hpos : first + (k + perRow) * V.width = first + k * V.width + 16 := by rw [Nat.add_mul, hrow, Nat.add_assoc]
    have haddress : base + BitVec.ofNat 32 (k * V.width) + 16 = base + BitVec.ofNat 32 ((k + perRow) * V.width) := by
      rw [Nat.add_mul, hrow, BitVec.ofNat_add, BitVec.add_assoc]
      rfl
    rw [rows, shown_label]
    refine shown_cells perRow k hk hinside hstop (fun _ => rfl) fun hmore next => ?_
    rw [shown_newline, if_neg (by decide), haddress, ← hpos]
    -- the last unit of the row is inside
    obtain ⟨last, hlast⟩ : ∃ last, perRow = last + 1 := Nat.exists_eq_succ_of_ne_zero fun hzero => by simp [hzero] at hrow
    have hfits : first + (k + perRow) * V.width ≤ V.size := by
      have hin : first + (k + last) * V.width + V.width ≤ V.size := (inside_iff).mp (hinside (k + last) (by omega))
      rw [hlast, ← Nat.add_assoc, Nat.succ_mul]
      omega
    exact ih (k + perRow) next hmore hfits (by omega)

/-- Nothing can be told of a run that leaves the mapping. -/
theorem inside_of_shown {events : List Event} {address : BitVec 32} {l : List (BitVec 32 × BitVec 32)}
    (hshown : shown V address events = some l) : ∀ pos, .read pos ∈ events → V.inside pos = true := by
  induction events generalizing address l with
  | nil => exact fun pos hread => (List.not_mem_nil hread).elim
  | cons e events ih =>
    have hrest : (∀ pos, e ≠ .read pos) → (∀ pos, .read pos ∈ events → V.inside pos = true) →
        ∀ pos, .read pos ∈ e :: events → V.inside pos = true := by
      intro hne hall pos hread
      rcases List.mem_cons.mp hread with rfl | hread
      · exact (hne pos rfl).elim
      · exact hall pos hread
    cases e with
    | read p =>
      rw [shown_read] at hshown
      cases hin : V.inside p with
      | false =>
        rw [hin] at hshown
        cases hshown
      | true =>
        rw [hin, if_pos rfl] at hshown
        intro pos hread
        rcases List.mem_cons.mp hread with heq | hread
        · obtain rfl := Event.read.inj heq
          exact hin
        · exact ih hshown pos hread
    | cell p value =>
      rw [shown_cell, Option.map_eq_some_iff] at hshown
      obtain ⟨l', hl', -⟩ := hshown
      exact hrest (by simp) (ih hl')
    | label label => exact hrest (by simp) (ih (shown_label address events label ▸ hshown))
    | blank => exact hrest (by simp) (ih (shown_blank address events ▸ hshown))
    | _ => exact hrest (by simp) (@ih address l hshown)

/-! ## The requested units -/

/-- A unit of memory: its address, and its value. -/
def unitAt (P : Platform) (lengthFlag : Length) (address : Nat) : BitVec 32 × BitVec 32 :=
  (BitVec.ofNat 32 address, load P lengthFlag address)

/-- The units of the range, from the start address aligned down. -/
def requestedUnits (P : Platform) (s : Settings) : List (BitVec 32 × BitVec 32) :=
  (List.range s.range.toInt.toNat).map fun i =>
    unitAt P s.lengthFlag (s.startAddress.toNat / s.lengthFlag.width * s.lengthFlag.width + i * s.lengthFlag.width)

/-- What a dump shows of mapped memory. -/
def dumpShown (P : Platform) (s : Settings) : Option (List (BitVec 32 × BitVec 32)) :=
  let size := (mappedSize P s.startAddress (dumpBytes P s)).toNat
  shown (P.view s.lengthFlag s.startAddress size) 0 (memDump P s)

/-- The requested range lies in the mapping. -/
def RangeMapped (P : Platform) (s : Settings) : Prop :=
  ((P.within s.startAddress / s.lengthFlag.width * s.lengthFlag.width : Nat) : Int) + s.lengthFlag.width * s.range.toInt ≤
    (mappedSize P s.startAddress (dumpBytes P s)).toNat

theorem filter_range'_le (skip n : Nat) :
    (List.range' 0 n).filter (fun k => !decide (k < skip)) = List.range' skip (n - skip) := by
  by_cases hn : n ≤ skip
  · rw [Nat.sub_eq_zero_of_le hn, List.filter_eq_nil_iff.mpr]
    · rfl
    · intro k hk
      have := List.mem_range'_1.mp hk
      simp
      omega
  · have hsplit : List.range' 0 n = List.range' 0 skip ++ List.range' skip (n - skip) := by
      have happend : List.range' 0 skip ++ List.range' (0 + skip) (n - skip) = List.range' 0 (skip + (n - skip)) :=
        List.range'_append_1
      rw [Nat.zero_add, Nat.add_sub_of_le (by omega)] at happend
      exact happend.symm
    rw [hsplit, List.filter_append, List.filter_eq_nil_iff.mpr, List.filter_eq_self.mpr, List.nil_append]
    · intro k hk
      have := List.mem_range'_1.mp hk
      simp
      omega
    · intro k hk
      have := List.mem_range'_1.mp hk
      simp
      omega

/-- The units that a run prints, by their physical addresses. -/
theorem entries_eq {lengthFlag : Length} {startAddress : BitVec 32} {size : Nat} (base n skip : Nat)
    (hbase : base = (offset P startAddress).toNat + first)
    (hblank : ∀ k, blank (first + k * lengthFlag.width) = decide (k < skip)) :
    entries (P.view lengthFlag startAddress size) (BitVec.ofNat 32 base) first blank 0 n =
      (List.range (n - skip)).map fun i => unitAt P lengthFlag (base + (skip + i) * lengthFlag.width) := by
  have hfilter : ((List.range' 0 n).filter fun k => !blank (first + k * lengthFlag.width)) = List.range' skip (n - skip) := by
    rw [← filter_range'_le]
    exact List.filter_congr fun k _ => by rw [hblank]
  rw [entries]
  show ((List.range' 0 n).filter fun k => !blank (first + k * lengthFlag.width)).map _ = _
  rw [hfilter, List.range'_eq_map_range, List.map_map]
  apply List.map_congr_left
  intro i _
  show (BitVec.ofNat 32 base + BitVec.ofNat 32 ((skip + i) * lengthFlag.width),
    load P lengthFlag ((offset P startAddress).toNat + (first + (skip + i) * lengthFlag.width))) = _
  rw [← BitVec.ofNat_add, ← Nat.add_assoc, ← hbase]
  rfl

section Shows
variable {size : Nat}

/-- The start address, and the beginnings of its unit and of its row. -/
theorem ofNat_aligned (startAddress : BitVec 32) (len : Nat) :
    startAddress &&& ~~~BitVec.ofNat 32 (2 ^ len - 1) = BitVec.ofNat 32 (startAddress.toNat / 2 ^ len * 2 ^ len) := by
  apply BitVec.eq_of_toNat_eq
  rw [Bits.toNat_and_not_low, BitVec.toNat_ofNat, Nat.mod_eq_of_lt]
  exact Nat.lt_of_le_of_lt (Nat.div_mul_le_self _ _) startAddress.isLt

/-- The page begins with a row, and a row with a unit. -/
theorem aligned_eq (P : Platform) (startAddress : BitVec 32) :
    startAddress.toNat / 16 * 16 = (offset P startAddress).toNat + P.within startAddress / 16 * 16 ∧
      startAddress.toNat / 4 * 4 = (offset P startAddress).toNat + P.within startAddress / 4 * 4 ∧
      startAddress.toNat = (offset P startAddress).toNat + P.within startAddress := by
  obtain ⟨m, hm, -, -⟩ := page_bounds P
  have hdiv := Nat.div_add_mod startAddress.toNat P.page
  have hoffset := offset_toNat P startAddress
  have hwithin : P.within startAddress = startAddress.toNat % P.page := rfl
  rw [← hwithin] at hdiv
  rw [Nat.mul_comm] at hoffset
  generalize startAddress.toNat / P.page = pages at hdiv hoffset
  have hpages : P.page * pages = 16 * (m * pages) := by rw [hm, Nat.mul_assoc]
  omega

variable {lengthFlag : Length} {startAddress range : BitVec 32}

theorem width_cases (lengthFlag : Length) : lengthFlag.width = 1 ∨ lengthFlag.width = 4 := by
  cases lengthFlag
  · exact .inl rfl
  · exact .inr rfl

theorem aligned_unit (P : Platform) (lengthFlag : Length) (startAddress : BitVec 32) :
    startAddress.toNat / lengthFlag.width * lengthFlag.width =
      (offset P startAddress).toNat + P.within startAddress / lengthFlag.width * lengthFlag.width := by
  obtain ⟨-, hword, hbyte⟩ := aligned_eq P startAddress
  rcases width_cases lengthFlag with hwidth | hwidth
  · rw [hwidth, Nat.div_one, Nat.mul_one, Nat.div_one, Nat.mul_one, hbyte]
  · rw [hwidth, hword]

theorem lines_shown {address : Nat → BitVec 32} {at' : Nat → Nat} (n : Nat) (next : BitVec 32)
    (haddress : ∀ i, address i = BitVec.ofNat 32 (startAddress.toNat / lengthFlag.width * lengthFlag.width) +
      BitVec.ofNat 32 (i * lengthFlag.width))
    (hat : ∀ i, at' i = P.within startAddress / lengthFlag.width * lengthFlag.width + i * lengthFlag.width)
    (hinside : ∀ k < n, (P.view lengthFlag startAddress size).inside
      (P.within startAddress / lengthFlag.width * lengthFlag.width + k * lengthFlag.width) = true) :
    shown (P.view lengthFlag startAddress size) next (lines (P.view lengthFlag startAddress size) address at' n 0) =
      some ((List.range n).map fun i =>
        unitAt P lengthFlag (startAddress.toNat / lengthFlag.width * lengthFlag.width + i * lengthFlag.width)) := by
  rw [shown_lines n 0 next haddress hat fun k _ hk => hinside k (by omega),
    entries_eq _ n 0 (aligned_unit P lengthFlag startAddress) fun k => by simp]
  simp

theorem table_shown {perRow : Nat} (n skip : Nat) (next : BitVec 32) (hrow : perRow * lengthFlag.width = 16)
    (hpage : P.page ≤ size)
    (hstop : ∀ k, stop (P.within startAddress / 16 * 16 + k * lengthFlag.width) = decide (n ≤ k))
    (hblank : ∀ k, blank (P.within startAddress / 16 * 16 + k * lengthFlag.width) = decide (k < skip))
    (hinside : ∀ k < n, (P.view lengthFlag startAddress size).inside
      (P.within startAddress / 16 * 16 + k * lengthFlag.width) = true) :
    shown (P.view lengthFlag startAddress size) next (.columns :: rows (P.view lengthFlag startAddress size) perRow stop blank
        (P.view lengthFlag startAddress size).rowCount (startAddress &&& ~~~15) (P.within startAddress / 16 * 16)) =
      some ((List.range (n - skip)).map fun i =>
        unitAt P lengthFlag (startAddress.toNat / 16 * 16 + (skip + i) * lengthFlag.width)) := by
  have hwithin := within_lt P startAddress
  have hlabel : startAddress &&& ~~~15 =
      BitVec.ofNat 32 (startAddress.toNat / 16 * 16) + BitVec.ofNat 32 (0 * lengthFlag.width) := by
    rw [Nat.zero_mul, BitVec.add_zero]
    exact ofNat_aligned startAddress 4
  have hfirst : P.within startAddress / 16 * 16 + 0 * lengthFlag.width ≤ size := by
    rw [Nat.zero_mul]
    omega
  have hrows : shown (P.view lengthFlag startAddress size) next (rows (P.view lengthFlag startAddress size) perRow stop blank
      (P.view lengthFlag startAddress size).rowCount
      (BitVec.ofNat 32 (startAddress.toNat / 16 * 16) + BitVec.ofNat 32 (0 * lengthFlag.width))
      (P.within startAddress / 16 * 16 + 0 * lengthFlag.width)) =
        some (entries (P.view lengthFlag startAddress size) (BitVec.ofNat 32 (startAddress.toNat / 16 * 16))
          (P.within startAddress / 16 * 16) blank 0 (n - 0)) :=
    shown_rows hrow _ 0 next (Nat.zero_le n) hfirst (rowCount_enough _ _) hinside hstop
  rw [Nat.zero_mul, Nat.add_zero, Nat.sub_zero, entries_eq _ n skip (aligned_eq P startAddress).1 hblank] at hrows
  rw [hlabel, Nat.zero_mul]
  exact hrows

end Shows

/-! ## The two layouts -/

section Layouts
variable {size : Nat}

/-- The lines of a dump show the requested units, if these are mapped. -/
theorem lineDump_shown (hformat : s.formatFlag = .line) (next : BitVec 32)
    (hinside : ∀ k < s.range.toInt.toNat, (P.view s.lengthFlag s.startAddress size).inside
      (P.within s.startAddress / s.lengthFlag.width * s.lengthFlag.width + k * s.lengthFlag.width) = true) :
    shown (P.view s.lengthFlag s.startAddress size) next (dumpMapped P s size) = some (requestedUnits P s) := by
  unfold dumpMapped requestedUnits
  rw [hformat]
  cases hlength : s.lengthFlag with
  | byte =>
    rw [hlength] at hinside
    refine lines_shown _ next (fun i => ?_) (fun i => ?_) hinside
    · simp [Length.width]
    · simp [Length.width, inPage_toNat]
  | word =>
    rw [hlength] at hinside
    have hlow : (inPage P s.startAddress &&& ~~~3).toNat = P.within s.startAddress / 4 * 4 := by
      rw [← inPage_toNat]
      exact @Bits.toNat_and_not_low 32 2 (inPage P s.startAddress)
    refine lines_shown _ next (fun i => ?_) (fun i => ?_) hinside
    · have hstart : s.startAddress &&& ~~~3 = BitVec.ofNat 32 (s.startAddress.toNat / 4 * 4) := ofNat_aligned _ 2
      rw [hstart]
      exact congrArg (_ + ·) (BitVec.ofNat_mul i 4).symm
    · show (((inPage P s.startAddress &&& ~~~3).toNat + i * 4) >>> 2) * 4 = P.within s.startAddress / 4 * 4 + i * 4
      rw [hlow, Nat.shiftRight_eq_div_pow]
      omega

/-- A table shows the requested units if and only if all it visits are mapped, and as many are shown. -/
theorem visits_shown_iff {events : List Event} {n : Nat} {blank : Nat → Bool} (skip : Nat) (next : BitVec 32)
    (hvisits : Visits (P.view s.lengthFlag s.startAddress size) events (P.within s.startAddress / 16 * 16) n blank)
    (hskip : s.startAddress.toNat / 16 * 16 + skip * s.lengthFlag.width =
      s.startAddress.toNat / s.lengthFlag.width * s.lengthFlag.width)
    (hshown : (∀ k < n, (P.view s.lengthFlag s.startAddress size).inside
        (P.within s.startAddress / 16 * 16 + k * s.lengthFlag.width) = true) →
      shown (P.view s.lengthFlag s.startAddress size) next events = some ((List.range (n - skip)).map fun i =>
        unitAt P s.lengthFlag (s.startAddress.toNat / 16 * 16 + (skip + i) * s.lengthFlag.width))) :
    shown (P.view s.lengthFlag s.startAddress size) next events = some (requestedUnits P s) ↔
      (∀ k < n, P.within s.startAddress / 16 * 16 + k * s.lengthFlag.width + s.lengthFlag.width ≤ size) ∧
        n - skip = s.range.toInt.toNat := by
  have hinside : ∀ pos, (P.view s.lengthFlag s.startAddress size).inside pos = true ↔ pos + s.lengthFlag.width ≤ size :=
    fun pos => decide_eq_true_iff
  simp only [hinside] at hshown
  constructor
  · intro hsame
    have hstays : Stays (P.view s.lengthFlag s.startAddress size) events fun _ => True :=
      ⟨inside_of_shown hsame, fun _ _ _ => trivial⟩
    have hunits : ∀ k < n, P.within s.startAddress / 16 * 16 + k * s.lengthFlag.width + s.lengthFlag.width ≤ size :=
      fun k hk => (hinside _).mp (hvisits.stays_iff.mp hstays k hk).1
    refine ⟨hunits, ?_⟩
    rw [hshown hunits] at hsame
    have hlength := congrArg List.length (Option.some.inj hsame)
    simpa [requestedUnits] using hlength
  · rintro ⟨hunits, hcount⟩
    rw [hshown hunits, hcount, requestedUnits]
    refine congrArg some (List.map_congr_left fun i _ => ?_)
    rw [Nat.add_mul, ← Nat.add_assoc, hskip]

theorem rowStart_toNat (P : Platform) (startAddress : BitVec 32) :
    (inPage P startAddress &&& ~~~15).toNat = P.within startAddress / 16 * 16 := by
  rw [← inPage_toNat]
  exact @Bits.toNat_and_not_low 32 4 (inPage P startAddress)

theorem byteTable_shown_iff (hlength : s.lengthFlag = .byte) (hpage : P.page ≤ size) (next : BitVec 32) :
    shown (P.view s.lengthFlag s.startAddress size) next
        (byteTable (P.view s.lengthFlag s.startAddress size) s.startAddress (inPage P s.startAddress) s.range) =
      some (requestedUnits P s) ↔
      ∀ k < (P.within s.startAddress + s.range.toInt - (P.within s.startAddress / 16 * 16 : Nat)).toNat,
        P.within s.startAddress / 16 * 16 + k + 1 ≤ size := by
  have hwidth : s.lengthFlag.width = 1 := by rw [hlength]; rfl
  obtain ⟨hrow, -, hbyte⟩ := aligned_eq P s.startAddress
  have hcount : (P.within s.startAddress + s.range.toInt - (P.within s.startAddress / 16 * 16 : Nat)).toNat -
      (P.within s.startAddress - P.within s.startAddress / 16 * 16) = s.range.toInt.toNat := by omega
  have hskip : s.startAddress.toNat / 16 * 16 +
      (P.within s.startAddress - P.within s.startAddress / 16 * 16) * s.lengthFlag.width =
        s.startAddress.toNat / s.lengthFlag.width * s.lengthFlag.width := by
    rw [hwidth]
    omega
  have hvisits : Visits (P.view s.lengthFlag s.startAddress size) (byteTable (P.view s.lengthFlag s.startAddress size)
      s.startAddress (inPage P s.startAddress) s.range) (P.within s.startAddress / 16 * 16) _ _ :=
    byteTable_visits hwidth hpage
  have hiff := visits_shown_iff _ next hvisits hskip fun hinside => by
    rw [byteTable, rowStart_toNat, inPage_toNat]
    refine table_shown _ _ next (by rw [hwidth]) hpage (fun k => ?_) (fun k => ?_) hinside
    · rw [decide_eq_decide, hwidth]
      omega
    · rw [decide_eq_decide, hwidth]
      omega
  rw [hiff, hcount, hwidth]
  simp

theorem wordTable_shown_iff (hlength : s.lengthFlag = .word) (hpage : P.page ≤ size) (next : BitVec 32) :
    shown (P.view s.lengthFlag s.startAddress size) next
        (wordTable (P.view s.lengthFlag s.startAddress size) s.startAddress (inPage P s.startAddress) s.range) =
      some (requestedUnits P s) ↔
      (∀ k < ((P.within s.startAddress + (s.range * 4).toInt - (P.within s.startAddress / 16 * 16 : Nat) + 3) / 4).toNat,
        P.within s.startAddress / 16 * 16 + k * 4 + 4 ≤ size) ∧
      ((P.within s.startAddress + (s.range * 4).toInt - (P.within s.startAddress / 16 * 16 : Nat) + 3) / 4).toNat -
        (P.within s.startAddress / 4 - P.within s.startAddress / 16 * 4) = s.range.toInt.toNat := by
  have hwidth : s.lengthFlag.width = 4 := by rw [hlength]; rfl
  obtain ⟨hrow, hword, -⟩ := aligned_eq P s.startAddress
  have hskip : s.startAddress.toNat / 16 * 16 +
      (P.within s.startAddress / 4 - P.within s.startAddress / 16 * 4) * s.lengthFlag.width =
        s.startAddress.toNat / s.lengthFlag.width * s.lengthFlag.width := by
    rw [hwidth]
    omega
  have hvisits : Visits (P.view s.lengthFlag s.startAddress size) (wordTable (P.view s.lengthFlag s.startAddress size)
      s.startAddress (inPage P s.startAddress) s.range) (P.within s.startAddress / 16 * 16) _ _ :=
    wordTable_visits hwidth hpage
  have hiff := visits_shown_iff _ next hvisits hskip fun hinside => by
    rw [wordTable, rowStart_toNat, inPage_toNat]
    simp only [Nat.shiftRight_eq_div_pow, Nat.shiftLeft_eq]
    refine table_shown _ _ next (by rw [hwidth]) hpage (fun k => ?_) (fun k => ?_) hinside
    · rw [decide_eq_decide, hwidth]
      omega
    · rw [decide_eq_decide, hwidth]
      omega
  rw [hiff, hwidth]

end Layouts

/-- What comes before the loops of a dump prints no unit. -/
theorem memDump_shown (hopens : P.opens = true) (hmaps : P.maps = true) (V : View) (next : BitVec 32) :
    shown V next (memDump P s) =
      shown V next (dumpMapped P s (mappedSize P s.startAddress (dumpBytes P s)).toNat) := by
  obtain ⟨hslt, hmapped, -⟩ := map_eq (P := P) s.startAddress (dumpBytes P s)
  have hok : (P.opens && P.maps) = true := by rw [hopens, hmaps]; rfl
  unfold memDump
  dsimp only
  rw [hslt, hok, hmapped hok]
  split <;> rfl

/-- The words that the table counts are those of a range that is mapped. -/
theorem wordCount_iff {size : Nat} (hpage : P.page ≤ size) (hsize : size ≤ 2 * P.page)
    (hmapped : ((P.within s.startAddress / 4 * 4 : Nat) : Int) + 4 * s.range.toInt ≤ size) :
    ((∀ k < ((P.within s.startAddress + (s.range * 4).toInt - (P.within s.startAddress / 16 * 16 : Nat) + 3) / 4).toNat,
        P.within s.startAddress / 16 * 16 + k * 4 + 4 ≤ size) ∧
      ((P.within s.startAddress + (s.range * 4).toInt - (P.within s.startAddress / 16 * 16 : Nat) + 3) / 4).toNat -
        (P.within s.startAddress / 4 - P.within s.startAddress / 16 * 4) = s.range.toInt.toNat) ↔
      P.within s.startAddress % 4 = 0 ∧ (0 ≤ s.range.toInt ∨ (s.range * 4).toInt ≤ 0) ∨
        s.range.toInt < 0 ∧ (s.range * 4).toInt < 0 := by
  have hwithin := within_lt P s.startAddress
  obtain ⟨m, hm, hpos, hbound⟩ := page_bounds P
  obtain ⟨c, hbytes, hlow, hhigh⟩ := toInt_words s.range
  generalize P.within s.startAddress = o at *
  generalize s.range.toInt = r at *
  generalize (s.range * 4).toInt = bytes at *
  constructor
  · rintro ⟨-, hcount⟩
    omega
  · intro hright
    refine ⟨fun k hk => ?_, ?_⟩
    · omega
    · omega

section Shown
variable (hopens : P.opens = true) (hmaps : P.maps = true) (hmapped : RangeMapped P s)
include hopens hmaps hmapped

theorem lines_same (hformat : s.formatFlag = .line) : dumpShown P s = some (requestedUnits P s) := by
  rw [dumpShown, memDump_shown hopens hmaps]
  refine lineDump_shown hformat 0 fun k hk => ?_
  rw [inside_iff]
  unfold RangeMapped at hmapped
  change _ + s.lengthFlag.width ≤ (mappedSize P s.startAddress (dumpBytes P s)).toNat
  rcases width_cases s.lengthFlag with hwidth | hwidth
  · rw [hwidth] at hmapped ⊢
    omega
  · rw [hwidth] at hmapped ⊢
    omega

theorem byteTable_same (hlength : s.lengthFlag = .byte) (hformat : s.formatFlag = .table) :
    dumpShown P s = some (requestedUnits P s) := by
  have hsize := (dumpSize_cases P s _ rfl).1
  have hwithin := within_lt P s.startAddress
  obtain ⟨m, hm, hpos, hbound⟩ := page_bounds P
  unfold RangeMapped at hmapped
  rw [dumpShown, memDump_shown hopens hmaps]
  generalize (mappedSize P s.startAddress (dumpBytes P s)).toNat = size at *
  have hdump : dumpMapped P s size =
      byteTable (P.view s.lengthFlag s.startAddress size) s.startAddress (inPage P s.startAddress) s.range := by
    rw [dumpMapped, hlength, hformat]
  rw [hdump]
  refine (byteTable_shown_iff hlength (by omega) 0).mpr fun k hk => ?_
  rw [hlength] at hmapped
  change ((P.within s.startAddress / 1 * 1 : Nat) : Int) + 1 * s.range.toInt ≤ _ at hmapped
  omega

theorem wordTable_same_iff (hlength : s.lengthFlag = .word) (hformat : s.formatFlag = .table) :
    dumpShown P s = some (requestedUnits P s) ↔
      s.startAddress.toNat % 4 = 0 ∧ (0 ≤ s.range.toInt ∨ (s.range * 4).toInt ≤ 0) ∨
        s.range.toInt < 0 ∧ (s.range * 4).toInt < 0 := by
  obtain ⟨-, hword, hstart⟩ := aligned_eq P s.startAddress
  have hsize := (dumpSize_cases P s _ rfl).1
  have hfour : s.startAddress.toNat % 4 = 0 ↔ P.within s.startAddress % 4 = 0 := by omega
  unfold RangeMapped at hmapped
  rw [dumpShown, memDump_shown hopens hmaps, hfour]
  generalize (mappedSize P s.startAddress (dumpBytes P s)).toNat = size at *
  have hdump : dumpMapped P s size =
      wordTable (P.view s.lengthFlag s.startAddress size) s.startAddress (inPage P s.startAddress) s.range := by
    rw [dumpMapped, hlength, hformat]
  rw [hdump]
  rw [hlength] at hmapped
  exact (wordTable_shown_iff hlength (by omega) 0).trans (wordCount_iff (by omega) (by omega) hmapped)

end Shown

/-- For every memory and every range that is mapped: both layouts show the units of the range with their
values if and only if the units are bytes, or the range begins at a word and is counted right. -/
theorem layouts_same_iff (P : Platform) (s : Settings) (hopens : P.opens = true) (hmaps : P.maps = true)
    (hmapped : RangeMapped P s) :
    (∀ format, dumpShown P { s with formatFlag := format } = some (requestedUnits P s)) ↔
      s.lengthFlag = .byte ∨
        s.startAddress.toNat % 4 = 0 ∧ (0 ≤ s.range.toInt ∨ (s.range * 4).toInt ≤ 0) ∨
        s.range.toInt < 0 ∧ (s.range * 4).toInt < 0 := by
  have hlines : dumpShown P { s with formatFlag := .line } = some (requestedUnits P s) :=
    lines_same hopens hmaps hmapped rfl
  have hboth : (∀ format, dumpShown P { s with formatFlag := format } = some (requestedUnits P s)) ↔
      dumpShown P { s with formatFlag := .table } = some (requestedUnits P s) := by
    constructor
    · exact fun hall => hall .table
    · intro htable format
      cases format with
      | line => exact hlines
      | table => exact htable
  rw [hboth]
  by_cases hbyte : s.lengthFlag = .byte
  · exact iff_of_true (byteTable_same (s := { s with formatFlag := .table }) hopens hmaps hmapped hbyte rfl) (.inl hbyte)
  · have hword : s.lengthFlag = .word := by
      cases hlength : s.lengthFlag with
      | byte => exact (hbyte hlength).elim
      | word => rfl
    have htable := wordTable_same_iff (s := { s with formatFlag := .table }) hopens hmaps hmapped hword rfl
    exact htable.trans ⟨.inr, fun hor => hor.resolve_left hbyte⟩

/-- Two words from a boundary on: a dump of the memory of zeros in which both layouts agree. -/
theorem layouts_same_aligned :
    dumpShown zeroMemory { settings [.dump, .word, .start 0x10000000, .range 2] with formatFlag := .line } =
      some (requestedUnits zeroMemory (settings [.dump, .word, .start 0x10000000, .range 2])) ∧
    dumpShown zeroMemory { settings [.dump, .word, .start 0x10000000, .range 2] with formatFlag := .table } =
      some (requestedUnits zeroMemory (settings [.dump, .word, .start 0x10000000, .range 2])) := by
  have hmapped : RangeMapped zeroMemory (settings [.dump, .word, .start 0x10000000, .range 2]) := by
    unfold RangeMapped
    decide
  have hsame := (layouts_same_iff zeroMemory (settings [.dump, .word, .start 0x10000000, .range 2]) rfl rfl hmapped).mpr
    (.inr (.inl ⟨by decide, .inl (by decide)⟩))
  exact ⟨hsame .line, hsame .table⟩

/-- Two words from an address that is not aligned: the table shows a third one. -/
theorem layouts_differ :
    RangeMapped zeroMemory (settings [.dump, .word, .start 0x10000002, .range 2]) ∧
      ¬∀ format, dumpShown zeroMemory { settings [.dump, .word, .start 0x10000002, .range 2] with formatFlag := format } =
        some (requestedUnits zeroMemory (settings [.dump, .word, .start 0x10000002, .range 2])) := by
  constructor
  · unfold RangeMapped
    decide
  · intro hall
    exact absurd (hall .table) (by decide)

end Memutil
