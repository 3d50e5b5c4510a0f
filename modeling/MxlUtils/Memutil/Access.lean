import MxlUtils.Lib.Bits
import MxlUtils.Memutil.Main

/- Which memory a run touches. A dump reads unit after unit, in the line layout from
   the aligned start on, in the table layout from the beginning of a row; it prints those
   it does not leave blank. How many it reads follows from the range and not from the
   size that was mapped. -/
namespace Memutil
open Window

variable {P : Platform} {V : View} {s : Settings} {stop blank : Nat → Bool} {width pos n : Nat}

theorem inside_iff : V.inside pos = true ↔ pos + V.width ≤ V.size := decide_eq_true_iff

/-! ## Reads of a run -/

def reads (events : List Event) : List Nat :=
  events.filterMap fun
    | .read pos => some pos
    | _ => none

@[simp] theorem reads_nil : reads [] = [] := rfl

@[simp] theorem reads_read (rest : List Event) : reads (.read pos :: rest) = pos :: reads rest := rfl

@[simp] theorem reads_label (address : BitVec 32) (rest : List Event) : reads (.label address :: rest) = reads rest := rfl

@[simp] theorem reads_cell (value : BitVec 32) (rest : List Event) : reads (.cell pos value :: rest) = reads rest := rfl

@[simp] theorem reads_blank (rest : List Event) : reads (.blank :: rest) = reads rest := rfl

@[simp] theorem reads_newline (rest : List Event) : reads (.newline :: rest) = reads rest := rfl

@[simp] theorem reads_columns (rest : List Event) : reads (.columns :: rest) = reads rest := rfl

theorem mem_reads {events : List Event} : pos ∈ reads events ↔ .read pos ∈ events := by
  simp only [reads, List.mem_filterMap]
  constructor
  · rintro ⟨e, he, hpos⟩
    cases e with
    | read p => exact Option.some.inj hpos ▸ he
    | _ => cases hpos
  · exact fun hread => ⟨.read pos, hread, rfl⟩

theorem reads_access (pos : Nat) (rest : BitVec 32 → List Event) :
    reads (V.access pos rest) = pos :: if V.inside pos then reads (rest (V.load pos)) else [] := by
  rw [View.access, reads_read]
  split <;> rfl

theorem reads_lines {address : Nat → BitVec 32} {at' : Nat → Nat} (n i : Nat)
    (hat : ∀ i, at' (i + 1) = at' i + V.width) :
    reads (lines V address at' n i) = upTo V.inside (positions V.width (at' i) n) := by
  induction n generalizing i with
  | zero => rfl
  | succ n ih =>
    rw [lines, reads_access, positions, upTo, ← hat, ← ih (i + 1)]
    rfl

theorem stop_next {units : Nat} (hstop : ∀ k, stop (pos + k * V.width) = decide (units ≤ k)) (j k : Nat) :
    stop (pos + j * V.width + k * V.width) = decide (units - j ≤ k) := by
  have hpos : pos + j * V.width + k * V.width = pos + (j + k) * V.width := by rw [Nat.add_mul, Nat.add_assoc]
  rw [hpos, hstop, decide_eq_decide]
  omega

/-- A row, where what follows it reads the units behind the row. -/
theorem reads_cells {rest : Bool → List Event} {units : Nat} (j pos : Nat) (hsize : pos ≤ V.size)
    (hstop : ∀ k, stop (pos + k * V.width) = decide (units ≤ k)) (hdone : reads (rest true) = [])
    (hmore : j ≤ units → pos + j * V.width ≤ V.size →
      reads (rest false) = upTo V.inside (positions V.width (pos + j * V.width) (units - j))) :
    reads (cells V stop blank rest j pos) = upTo V.inside (positions V.width pos units) := by
  induction j generalizing pos units with
  | zero => simpa [cells] using hmore (Nat.zero_le _) (by omega)
  | succ j ih =>
    have hhere : stop pos = decide (units ≤ 0) := by simpa using hstop 0
    cases units with
    | zero => simp [cells, hhere, hdone, positions, upTo]
    | succ u =>
      have hnext : ∀ k, stop (pos + V.width + k * V.width) = decide (u ≤ k) := by
        intro k
        simpa using stop_next hstop 1 k
      rw [cells, hhere, if_neg (by simp), reads_access, positions, upTo]
      cases hin : V.inside pos with
      | false => rfl
      | true =>
        have hinside : pos + V.width ≤ V.size := (inside_iff).mp hin
        have hrow := ih (pos + V.width) hinside hnext fun hj hfits => by
          have hpos : pos + V.width + j * V.width = pos + (j + 1) * V.width := by rw [Nat.succ_mul]; omega
          rw [hpos] at hfits ⊢
          simpa using hmore (by omega) hfits
        rw [if_pos rfl, if_pos rfl, ← hrow]
        split <;> rfl

/-- The rows read the units in their order, and end with the last one. -/
theorem reads_rows {perRow units : Nat} (hrow : perRow * V.width = 16) (n : Nat) (address : BitVec 32) (pos : Nat)
    (hsize : pos ≤ V.size) (hn : V.size < pos + 16 * n) (hstop : ∀ k, stop (pos + k * V.width) = decide (units ≤ k)) :
    reads (rows V perRow stop blank n address pos) = upTo V.inside (positions V.width pos units) := by
  induction n generalizing address pos units with
  | zero => omega
  | succ n ih =>
    rw [rows, reads_label]
    refine reads_cells perRow pos hsize hstop rfl fun _ hfits => ?_
    rw [hrow] at hfits ⊢
    exact ih (address + 16) (pos + 16) hfits (by omega) fun k => hrow ▸ stop_next hstop perRow k

/-! ## Cells of a run -/

/-- What is printed was read before, from the mapping, and is not left blank; and all of that is printed. -/
def PrintsRead (V : View) (blank : Nat → Bool) (events : List Event) : Prop :=
  ∀ pos, (∃ value, .cell pos value ∈ events) ↔ .read pos ∈ events ∧ V.inside pos = true ∧ blank pos = false

theorem printsRead_nil : PrintsRead V blank [] := by
  intro pos
  simp

/-- An event that is no read and no cell. -/
theorem PrintsRead.cons {events : List Event} {e : Event} (hrest : PrintsRead V blank events)
    (hread : ∀ pos, e ≠ .read pos) (hcell : ∀ pos value, e ≠ .cell pos value) : PrintsRead V blank (e :: events) := by
  intro pos
  have hno : .read pos ∈ e :: events ↔ .read pos ∈ events := by simp [Ne.symm (hread pos)]
  have hnone : ∀ value, .cell pos value ∈ e :: events ↔ .cell pos value ∈ events := by
    intro value
    simp [Ne.symm (hcell pos value)]
  rw [hno, ← hrest pos]
  exact exists_congr hnone

/-- One unit: a read, after which the unit is printed or left blank. -/
theorem PrintsRead.access {rest : BitVec 32 → List Event} (pos : Nat)
    (hrest : ∀ value q, (∃ v, .cell q v ∈ rest value) ↔
      q = pos ∧ blank q = false ∨ .read q ∈ rest value ∧ V.inside q = true ∧ blank q = false) :
    PrintsRead V blank (V.access pos rest) := by
  intro q
  rw [View.access]
  cases hin : V.inside pos with
  | false =>
    constructor
    · simp
    · rintro ⟨hread, hq, -⟩
      obtain rfl : q = pos := by simpa using hread
      rw [hin] at hq
      cases hq
  | true =>
    have hcells : (∃ v, .cell q v ∈ Event.read pos :: rest (V.load pos)) ↔ ∃ v, .cell q v ∈ rest (V.load pos) := by simp
    rw [if_pos rfl, hcells, hrest (V.load pos) q, List.mem_cons, Event.read.injEq]
    constructor
    · rintro (⟨rfl, hblank⟩ | ⟨hread, hq⟩)
      · exact ⟨.inl rfl, hin, hblank⟩
      · exact ⟨.inr hread, hq⟩
    · rintro ⟨rfl | hread, hq⟩
      · exact .inl ⟨rfl, hq.2⟩
      · exact .inr ⟨hread, hq⟩

theorem printsRead_lines {address : Nat → BitVec 32} {at' : Nat → Nat} (n i : Nat) :
    PrintsRead V (fun _ => false) (lines V address at' n i) := by
  induction n generalizing i with
  | zero => exact printsRead_nil
  | succ n ih =>
    rw [lines]
    refine PrintsRead.access (at' i) fun value q => ?_
    have hrest := ih (i + 1) q
    have hcells : (∃ v, .cell q v ∈ Event.label (address i) :: .cell (at' i) value :: .newline ::
        lines V address at' n (i + 1)) ↔ q = at' i ∨ ∃ v, .cell q v ∈ lines V address at' n (i + 1) := by
      simp [exists_or]
    rw [hcells, hrest]
    simp

theorem printsRead_cells {rest : Bool → List Event} (hrest : ∀ finish, PrintsRead V blank (rest finish)) (j pos : Nat) :
    PrintsRead V blank (cells V stop blank rest j pos) := by
  induction j generalizing pos with
  | zero => exact hrest false
  | succ j ih =>
    rw [cells]
    split
    · exact hrest true
    · refine PrintsRead.access pos fun value q => ?_
      have hnext := ih (pos + V.width) q
      cases hblank : blank pos with
      | true =>
        have hne : ¬(q = pos ∧ blank q = false) := by
          rintro ⟨rfl, hq⟩
          rw [hblank] at hq
          cases hq
        simpa [hne] using hnext
      | false =>
        have hcells : (∃ v, .cell q v ∈ Event.cell pos value :: cells V stop blank rest j (pos + V.width)) ↔
            q = pos ∨ ∃ v, .cell q v ∈ cells V stop blank rest j (pos + V.width) := by
          simp [exists_or]
        have hhere : q = pos ∧ blank q = false ↔ q = pos := by
          constructor
          · exact And.left
          · rintro rfl
            exact ⟨rfl, hblank⟩
        rw [if_neg (by decide), hcells, hnext, hhere]
        simp

theorem printsRead_rows {perRow : Nat} (n : Nat) (address : BitVec 32) (pos : Nat) :
    PrintsRead V blank (rows V perRow stop blank n address pos) := by
  induction n generalizing address pos with
  | zero => exact printsRead_nil
  | succ n ih =>
    rw [rows]
    refine (printsRead_cells (fun finish => ?_) perRow pos).cons (by simp) (by simp)
    cases finish with
    | true => exact printsRead_nil.cons (by simp) (by simp)
    | false => exact (ih (address + 16) (pos + 16)).cons (by simp) (by simp)

/-! ## What is inside -/

/-- A run visits `units` units from `first` on, and prints those that it does not leave blank. -/
structure Visits (V : View) (events : List Event) (first units : Nat) (blank : Nat → Bool) : Prop where
  reads : reads events = upTo V.inside (positions V.width first units)
  prints : PrintsRead V blank events

/-- A run reads inside, and prints only units of the request. -/
def Stays (V : View) (events : List Event) (Wanted : Nat → Prop) : Prop :=
  (∀ p, .read p ∈ events → V.inside p = true) ∧ ∀ p value, .cell p value ∈ events → Wanted p

/-- What a run visits decides whether it stays inside. -/
theorem Visits.stays_iff {events : List Event} {units : Nat} {Wanted : Nat → Prop} (hvisits : Visits V events pos units blank) :
    Stays V events Wanted ↔
      ∀ k < units, V.inside (pos + k * V.width) = true ∧ (blank (pos + k * V.width) = false → Wanted (pos + k * V.width)) := by
  obtain ⟨hreads, hprints⟩ := hvisits
  have hall : (∀ p, .read p ∈ events → V.inside p = true) ↔ ∀ k < units, V.inside (pos + k * V.width) = true := by
    simp only [← mem_reads, hreads]
    rw [upTo_inside_iff]
    constructor
    · exact fun hin k hk => hin _ (mem_positions.mpr ⟨k, hk, rfl⟩)
    · intro hin p hp
      obtain ⟨k, hk, rfl⟩ := (mem_positions).mp hp
      exact hin k hk
  have hunits : ∀ p, .read p ∈ events → ∃ k < units, p = pos + k * V.width := by
    intro p hp
    rw [← mem_reads, hreads] at hp
    exact (mem_positions).mp (mem_of_mem_upTo hp)
  constructor
  · rintro ⟨hin, hwanted⟩ k hk
    have hpos := hall.mp hin k hk
    refine ⟨hpos, fun hblank => ?_⟩
    have hread : .read (pos + k * V.width) ∈ events := by
      have hmem : ∀ p ∈ positions V.width pos units, V.inside p = true := by
        intro p hp
        obtain ⟨i, hi, rfl⟩ := (mem_positions).mp hp
        exact hall.mp hin i hi
      have hwhole : upTo V.inside (positions V.width pos units ++ []) = _ := upTo_append hmem
      rw [List.append_nil] at hwhole
      rw [← mem_reads, hreads, hwhole]
      exact List.mem_append_left _ (mem_positions.mpr ⟨k, hk, rfl⟩)
    obtain ⟨value, hcell⟩ := (hprints _).mpr ⟨hread, hpos, hblank⟩
    exact hwanted _ value hcell
  · intro hunit
    refine ⟨hall.mpr fun k hk => (hunit k hk).1, fun p value hcell => ?_⟩
    obtain ⟨hread, -, hblank⟩ := (hprints p).mp ⟨value, hcell⟩
    obtain ⟨k, hk, rfl⟩ := hunits p hread
    exact (hunit k hk).2 hblank

theorem Visits.columns {events : List Event} {units : Nat} (hvisits : Visits V events pos units blank) :
    Visits V (.columns :: events) pos units blank :=
  ⟨hvisits.reads, hvisits.prints.cons (by simp) (by simp)⟩

/-! ## Events of a dump -/

/-- What the loops of a dump do. -/
def Event.ofDump : Event → Bool
  | .read _ | .columns | .label _ | .blank | .cell _ _ | .newline => true
  | _ => false

theorem ofDump_access {rest : BitVec 32 → List Event} (pos : Nat)
    (hrest : ∀ value, ∀ e ∈ rest value, e.ofDump = true) : ∀ e ∈ V.access pos rest, e.ofDump = true := by
  intro e he
  rw [View.access, List.mem_cons] at he
  rcases he with rfl | he
  · rfl
  · split at he
    · exact hrest _ e he
    · cases he

theorem ofDump_lines {address : Nat → BitVec 32} {at' : Nat → Nat} (n i : Nat) :
    ∀ e ∈ lines V address at' n i, e.ofDump = true := by
  induction n generalizing i with
  | zero => exact fun e he => (List.not_mem_nil he).elim
  | succ n ih =>
    rw [lines]
    refine ofDump_access (at' i) fun value e he => ?_
    simp only [List.mem_cons] at he
    rcases he with rfl | rfl | rfl | he
    · rfl
    · rfl
    · rfl
    · exact ih (i + 1) e he

theorem ofDump_cells {rest : Bool → List Event} (hrest : ∀ finish, ∀ e ∈ rest finish, e.ofDump = true) (j pos : Nat) :
    ∀ e ∈ cells V stop blank rest j pos, e.ofDump = true := by
  induction j generalizing pos with
  | zero => exact hrest false
  | succ j ih =>
    rw [cells]
    split
    · exact hrest true
    · refine ofDump_access pos fun value e he => ?_
      rcases List.mem_cons.mp he with rfl | he
      · split <;> rfl
      · exact ih (pos + V.width) e he

theorem ofDump_rows {perRow : Nat} (n : Nat) (address : BitVec 32) (pos : Nat) :
    ∀ e ∈ rows V perRow stop blank n address pos, e.ofDump = true := by
  induction n generalizing address pos with
  | zero => exact fun e he => (List.not_mem_nil he).elim
  | succ n ih =>
    rw [rows]
    intro e he
    rcases List.mem_cons.mp he with rfl | he
    · rfl
    · refine ofDump_cells (fun finish e he => ?_) perRow pos e he
      rcases List.mem_cons.mp he with rfl | he
      · rfl
      · cases finish with
        | true => cases he
        | false => exact ih (address + 16) (pos + 16) e he

theorem ofDump_dumpMapped (s : Settings) (size : Nat) : ∀ e ∈ dumpMapped P s size, e.ofDump = true := by
  intro e he
  unfold dumpMapped at he
  split at he
  · exact ofDump_lines _ _ e he
  · rcases List.mem_cons.mp he with rfl | he
    · rfl
    · exact ofDump_rows _ _ _ e he
  · exact ofDump_lines _ _ e he
  · rcases List.mem_cons.mp he with rfl | he
    · rfl
    · exact ofDump_rows _ _ _ e he

/-! ## Addresses and pages -/

def Platform.page (P : Platform) : Nat := 2 ^ P.pageBits

/-- Where in its page the start address is. -/
def Platform.within (P : Platform) (startAddress : BitVec 32) : Nat := startAddress.toNat % P.page

theorem page_bounds (P : Platform) : ∃ m, P.page = 16 * m ∧ 0 < m ∧ P.page ≤ 2 ^ 29 := by
  refine ⟨2 ^ (P.pageBits - 4), ?_, Nat.two_pow_pos _, ?_⟩
  · have hbits : P.pageBits = 4 + (P.pageBits - 4) := by
      have := P.pageBits_ge
      omega
    rw [Platform.page, hbits, Nat.pow_add]
    simp
  · exact Nat.pow_le_pow_right (by decide) (Nat.le_of_lt_succ P.pageBits_lt)

theorem pageSize_toNat (P : Platform) : P.pageSize.toNat = P.page := by
  obtain ⟨_, _, _, hpage⟩ := page_bounds P
  rw [Platform.pageSize, BitVec.toNat_shiftLeft, Nat.shiftLeft_eq]
  show 1 * P.page % 2 ^ 32 = P.page
  omega

theorem pageSize_toInt (P : Platform) : P.pageSize.toInt = P.page := by
  obtain ⟨_, _, _, hpage⟩ := page_bounds P
  rw [BitVec.toInt_eq_toNat_of_lt, pageSize_toNat]
  rw [pageSize_toNat]
  omega

theorem pageSize_sub_one (P : Platform) : P.pageSize - 1 = BitVec.ofNat 32 (2 ^ P.pageBits - 1) := by
  obtain ⟨m, hm, hpos, hpage⟩ := page_bounds P
  apply BitVec.eq_of_toNat_eq
  rw [BitVec.toNat_sub, pageSize_toNat, BitVec.toNat_ofNat]
  change (2 ^ 32 - 1 + P.page) % 2 ^ 32 = (P.page - 1) % 2 ^ 32
  omega

theorem offset_toNat (P : Platform) (startAddress : BitVec 32) :
    (offset P startAddress).toNat = startAddress.toNat / P.page * P.page := by
  rw [offset, pageSize_sub_one, Bits.toNat_and_not_low, Platform.page]

theorem inPage_toNat (P : Platform) (startAddress : BitVec 32) :
    (inPage P startAddress).toNat = P.within startAddress := by
  have hdiv := Nat.div_add_mod startAddress.toNat P.page
  rw [Nat.mul_comm] at hdiv
  have hlt := startAddress.isLt
  rw [inPage, BitVec.toNat_sub, offset_toNat, Platform.within]
  omega

theorem within_lt (P : Platform) (startAddress : BitVec 32) : P.within startAddress < P.page :=
  Nat.mod_lt _ (Nat.two_pow_pos _)

/-- How much is mapped, for a length that is not negative. -/
theorem mappedSize_toNat (startAddress len : BitVec 32) :
    ((mappedSize P startAddress len).toNat = P.page ∨ (mappedSize P startAddress len).toNat = 2 * P.page) ∧
      (len.toNat ≤ P.page → (mappedSize P startAddress len).toNat =
        if P.page < P.within startAddress + len.toNat then 2 * P.page else P.page) := by
  obtain ⟨m, hm, hpos, hpage⟩ := page_bounds P
  have hwithin := within_lt P startAddress
  have hand : (startAddress &&& (P.pageSize - 1)).toNat = P.within startAddress := by
    rw [pageSize_sub_one, Bits.toNat_and_low]
    rfl
  have hdouble : (P.pageSize * 2).toNat = 2 * P.page := by
    rw [BitVec.toNat_mul, pageSize_toNat]
    change P.page * 2 % 2 ^ 32 = 2 * P.page
    omega
  unfold mappedSize
  dsimp only
  constructor
  · split
    · exact .inr hdouble
    · exact .inl (pageSize_toNat P)
  · intro hlen
    have hlt : P.pageSize < (startAddress &&& (P.pageSize - 1)) + len ↔ P.page < P.within startAddress + len.toNat := by
      rw [BitVec.lt_def, BitVec.toNat_add, hand, pageSize_toNat, Nat.mod_eq_of_lt (by omega)]
    by_cases hspans : P.page < P.within startAddress + len.toNat
    · rw [if_pos (hlt.mpr hspans), if_pos hspans, hdouble]
    · rw [if_neg (fun h => hspans (hlt.mp h)), if_neg hspans, pageSize_toNat]

end Memutil
