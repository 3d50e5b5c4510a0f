import MxlUtils.Memutil.Access

/- When a run stays in the mapping and in the request. A write always does. A dump
   does if its range is at most a page, or if the second page, which is mapped for a
   start address within the first, holds it; the table of words goes on to the first
   word that begins a whole range behind the start address, and so prints one word more
   than was asked for where that address is not aligned. -/
namespace Memutil
open Window

variable {P : Platform} {s : Settings}

/-- The unit lies in a range of units, which begins at the start address aligned down. -/
def Requested (P : Platform) (s : Settings) (range : Int) (pos : Nat) : Prop :=
  let first := P.within s.startAddress / s.lengthFlag.width * s.lengthFlag.width
  first ≤ pos ∧ ((pos + s.lengthFlag.width : Nat) : Int) ≤ first + s.lengthFlag.width * range

/-- All that is read and written is in the mapping, and all that is printed and written in the request. -/
structure Safe (P : Platform) (s : Settings) (events : List Event) : Prop where
  read_mapped : ∀ pos, .read pos ∈ events → ∃ size, .mapped size ∈ events ∧ pos + s.lengthFlag.width ≤ size
  store_mapped : ∀ pos value, .store pos value ∈ events →
    ∃ size, .mapped size ∈ events ∧ pos + s.lengthFlag.width ≤ size
  cell_requested : ∀ pos value, .cell pos value ∈ events → Requested P s s.range.toInt pos
  store_requested : ∀ pos value, .store pos value ∈ events → Requested P s 1 pos

/-- The ranges that a dump can show. In the table of words the range is counted in bytes, in an
integer of 32 bits, and from the start address as it is. -/
def Fits (P : Platform) (s : Settings) : Prop :=
  let start : Int := P.within s.startAddress
  let range := s.range.toInt
  match s.lengthFlag, s.formatFlag with
  | .byte, _ => range ≤ P.page ∨ start ≠ 0 ∧ start + range ≤ 2 * P.page
  | .word, .line => 4 * range ≤ P.page ∨ start ≠ 0 ∧ start / 4 * 4 + 4 * range ≤ 2 * P.page
  | .word, .table =>
    let bytes := (s.range * 4).toInt
    let extra := if start % 4 = 0 then 0 else 4
    (bytes ≤ P.page ∨ start ≠ 0 ∧ start + bytes ≤ 2 * P.page) ∧ (bytes + extra ≤ 0 ∨ bytes + extra ≤ 4 * range)

/-- How much is mapped for a dump. -/
theorem dumpSize_cases (P : Platform) (s : Settings) (size : Nat)
    (hsize : size = (mappedSize P s.startAddress (dumpBytes P s)).toNat) :
    (size = P.page ∨ size = 2 * P.page) ∧
      (P.page < (neededBytes s.lengthFlag s.range).toInt → size = if P.within s.startAddress = 0 then P.page else 2 * P.page) ∧
      (0 ≤ (neededBytes s.lengthFlag s.range).toInt → (neededBytes s.lengthFlag s.range).toInt ≤ P.page →
        size = if P.page < P.within s.startAddress + (neededBytes s.lengthFlag s.range).toInt then 2 * P.page else P.page) := by
  obtain ⟨heither, hfits⟩ := mappedSize_toNat (P := P) s.startAddress (dumpBytes P s)
  rw [← hsize] at heither hfits
  refine ⟨heither, fun hbig => ?_, fun hpos hsmall => ?_⟩
  · have hbytes : (dumpBytes P s).toNat = P.page := by
      rw [dumpBytes, if_pos, pageSize_toNat]
      rw [BitVec.slt_iff_toInt_lt, pageSize_toInt]
      exact hbig
    rw [hfits (by omega), hbytes]
    by_cases hzero : P.within s.startAddress = 0
    · rw [if_neg (by omega), if_pos hzero]
    · rw [if_pos (by omega), if_neg hzero]
  · have hbytes : dumpBytes P s = neededBytes s.lengthFlag s.range := by
      rw [dumpBytes, if_neg]
      rw [BitVec.slt_iff_toInt_lt, pageSize_toInt]
      omega
    have hnat : ((dumpBytes P s).toNat : Int) = (neededBytes s.lengthFlag s.range).toInt := by
      rw [hbytes]
      rw [BitVec.toInt_eq_toNat_cond] at hpos ⊢
      split at hpos
      · rename_i hlow
        rw [if_pos hlow]
      · have := (neededBytes s.lengthFlag s.range).isLt
        omega
    rw [hfits (by omega)]
    by_cases hspans : P.page < P.within s.startAddress + (dumpBytes P s).toNat
    · rw [if_pos hspans, if_pos (by omega)]
    · rw [if_neg hspans, if_neg (by omega)]

/-- The dump of bytes visits those of the range, in the table with those in front of it. -/
theorem byte_fits_iff {size : Nat} (first units : Nat) (hlength : s.lengthFlag = .byte)
    (hsize : size = (mappedSize P s.startAddress (dumpBytes P s)).toNat) (hfirst : first ≤ P.within s.startAddress)
    (hunits : units = (P.within s.startAddress + s.range.toInt - first).toNat) :
    (∀ k < units, first + k + 1 ≤ size ∧ (P.within s.startAddress ≤ first + k → Requested P s s.range.toInt (first + k))) ↔
      s.range.toInt ≤ P.page ∨
        (P.within s.startAddress : Int) ≠ 0 ∧ P.within s.startAddress + s.range.toInt ≤ 2 * P.page := by
  obtain ⟨heither, hbig, hsmall⟩ := dumpSize_cases P s size hsize
  have hwithin := within_lt P s.startAddress
  have hneeded : (neededBytes s.lengthFlag s.range).toInt = s.range.toInt := by rw [hlength]; rfl
  rw [hneeded] at hbig hsmall
  simp only [Requested, hlength, Length.width, Nat.div_one, Nat.mul_one]
  generalize P.within s.startAddress = o at *
  generalize s.range.toInt = r at *
  constructor
  · intro hall
    by_contra hnot
    have hlarge : P.page < r := by omega
    have hmapped := hbig hlarge
    have hlast := (hall (units - 1) (by omega)).1
    split at hmapped <;> omega
  · intro hfits k hk
    refine ⟨?_, by omega⟩
    by_cases hlarge : P.page < r
    · have hmapped := hbig hlarge
      rw [if_neg (by omega)] at hmapped
      omega
    · by_cases hpos : 0 ≤ r
      · have hmapped := hsmall hpos (by omega)
        split at hmapped <;> omega
      · omega

/-- The bytes of a range of words, in an integer of 32 bits. -/
theorem toInt_words (range : BitVec 32) :
    ∃ c : Int, (range * 4).toInt = 4 * range.toInt + 2 ^ 32 * c ∧ -2 ^ 31 ≤ (range * 4).toInt ∧ (range * 4).toInt < 2 ^ 31 := by
  have hmul : (range * 4).toInt = (range.toInt * 4).bmod (2 ^ 32) := BitVec.toInt_mul range 4
  have hmod : (range * 4).toInt % 2 ^ 32 = range.toInt * 4 % 2 ^ 32 := by
    rw [hmul]
    exact Int.bmod_emod
  have hlow := BitVec.le_toInt (range * 4)
  have hhigh := BitVec.toInt_lt (x := range * 4)
  refine ⟨((range * 4).toInt - 4 * range.toInt) / 2 ^ 32, by omega, by omega, by omega⟩

theorem wordLine_fits_iff {size : Nat} (first units : Nat) (hlength : s.lengthFlag = .word)
    (hsize : size = (mappedSize P s.startAddress (dumpBytes P s)).toNat)
    (hfirst : first = P.within s.startAddress / 4 * 4) (hunits : units = s.range.toInt.toNat) :
    (∀ k < units, first + k * 4 + 4 ≤ size ∧ Requested P s s.range.toInt (first + k * 4)) ↔
      4 * s.range.toInt ≤ P.page ∨
        (P.within s.startAddress : Int) ≠ 0 ∧ (P.within s.startAddress : Int) / 4 * 4 + 4 * s.range.toInt ≤ 2 * P.page := by
  obtain ⟨heither, hbig, hsmall⟩ := dumpSize_cases P s size hsize
  obtain ⟨m, hm, hpos, hpage⟩ := page_bounds P
  obtain ⟨c, hbytes, hlow, hhigh⟩ := toInt_words s.range
  have hwithin := within_lt P s.startAddress
  have hneeded : (neededBytes s.lengthFlag s.range).toInt = (s.range * 4).toInt := by rw [hlength]; rfl
  rw [hneeded] at hbig hsmall
  simp only [Requested, hlength, Length.width, ← hfirst]
  generalize P.within s.startAddress = o at *
  generalize s.range.toInt = r at *
  generalize (s.range * 4).toInt = bytes at *
  constructor
  · intro hall
    by_contra hnot
    have hlast := (hall (units - 1) (by omega)).1
    by_cases hlarge : P.page < bytes
    · have hmapped := hbig hlarge
      split at hmapped <;> omega
    · omega
  · intro hfits k hk
    refine ⟨?_, by omega, by omega⟩
    by_cases hlarge : P.page < bytes
    · have hmapped := hbig hlarge
      rw [if_neg (by omega)] at hmapped
      omega
    · have hmapped := hsmall (by omega) (by omega)
      split at hmapped <;> omega

theorem wordTable_fits_iff {size : Nat} (first units : Nat) (hlength : s.lengthFlag = .word)
    (hsize : size = (mappedSize P s.startAddress (dumpBytes P s)).toNat)
    (hfirst : first = P.within s.startAddress / 16 * 16)
    (hunits : units = ((P.within s.startAddress + (s.range * 4).toInt - first + 3) / 4).toNat) :
    (∀ k < units, first + k * 4 + 4 ≤ size ∧
        (P.within s.startAddress / 4 ≤ (first + k * 4) / 4 → Requested P s s.range.toInt (first + k * 4))) ↔
      ((s.range * 4).toInt ≤ P.page ∨
          (P.within s.startAddress : Int) ≠ 0 ∧ P.within s.startAddress + (s.range * 4).toInt ≤ 2 * P.page) ∧
        ((s.range * 4).toInt + (if (P.within s.startAddress : Int) % 4 = 0 then 0 else 4) ≤ 0 ∨
          (s.range * 4).toInt + (if (P.within s.startAddress : Int) % 4 = 0 then 0 else 4) ≤ 4 * s.range.toInt) := by
  obtain ⟨heither, hbig, hsmall⟩ := dumpSize_cases P s size hsize
  obtain ⟨m, hm, hpos, hpage⟩ := page_bounds P
  obtain ⟨c, hbytes, hlow, hhigh⟩ := toInt_words s.range
  have hwithin := within_lt P s.startAddress
  have hneeded : (neededBytes s.lengthFlag s.range).toInt = (s.range * 4).toInt := by rw [hlength]; rfl
  rw [hneeded] at hbig hsmall
  simp only [Requested, hlength, Length.width]
  generalize P.within s.startAddress = o at *
  generalize s.range.toInt = r at *
  generalize (s.range * 4).toInt = bytes at *
  obtain ⟨extra, hextra, haligned, hunaligned⟩ : ∃ extra : Int, (if (o : Int) % 4 = 0 then 0 else 4) = extra ∧
      ((o : Int) % 4 = 0 → extra = 0) ∧ ((o : Int) % 4 ≠ 0 → extra = 4) :=
    ⟨_, rfl, fun h => if_pos h, fun h => if_neg h⟩
  rw [hextra]
  constructor
  · intro hall
    constructor
    · by_contra hnot
      have hlarge : P.page < bytes := by omega
      have hmapped := hbig hlarge
      have hlast := (hall (units - 1) (by omega)).1
      split at hmapped <;> omega
    · have hwhole : bytes % 4 = 0 := by omega
      clear hbig hsmall heither hbytes
      by_contra hnot
      by_cases hfour : (o : Int) % 4 = 0
      · have := haligned hfour
        have hlast := (hall (units - 1) (by omega)).2 (by omega)
        omega
      · have := hunaligned hfour
        have hlast := (hall (units - 1) (by omega)).2 (by omega)
        omega
  · rintro ⟨hfits, hrange⟩ k hk
    constructor
    · clear haligned hunaligned hrange hextra
      by_cases hlarge : P.page < bytes
      · have hmapped := hbig hlarge
        rw [if_neg (by omega)] at hmapped
        omega
      · by_cases hnonneg : 0 ≤ bytes
        · have hmapped := hsmall hnonneg (by omega)
          split at hmapped <;> omega
        · omega
    · intro hshown
      clear hbig hsmall heither hfits hbytes
      refine ⟨by omega, ?_⟩
      by_cases hfour : (o : Int) % 4 = 0
      · have := haligned hfour
        omega
      · have := hunaligned hfour
        omega

/-! ## The four dumps -/

section Dumps
variable {V : View} {startAddress range : BitVec 32}

/-- The rows of a table are enough. -/
theorem rowCount_enough (V : View) (pos : Nat) : V.size < pos + 16 * V.rowCount := by
  have := Nat.div_add_mod V.size 16
  have := Nat.mod_lt V.size (show 0 < 16 by decide)
  rw [View.rowCount]
  omega

theorem byteLine_visits (hwidth : V.width = 1) :
    Visits V (byteLine V startAddress (inPage P startAddress) range) (P.within startAddress) range.toInt.toNat
      (fun _ => false) := by
  constructor
  · rw [byteLine, reads_lines _ 0 fun i => by rw [← Nat.add_assoc, hwidth], inPage_toNat]
    rfl
  · exact printsRead_lines _ 0

theorem byteTable_visits (hwidth : V.width = 1) (hsize : P.page ≤ V.size) :
    Visits V (byteTable V startAddress (inPage P startAddress) range) (P.within startAddress / 16 * 16)
      (P.within startAddress + range.toInt - (P.within startAddress / 16 * 16 : Nat)).toNat
      (fun pos => pos < P.within startAddress) := by
  have hwithin := within_lt P startAddress
  have hfirst : (inPage P startAddress &&& ~~~15).toNat = P.within startAddress / 16 * 16 := by
    rw [← inPage_toNat]
    exact @Bits.toNat_and_not_low 32 4 (inPage P startAddress)
  rw [byteTable, hfirst, inPage_toNat]
  apply Visits.columns
  constructor
  · refine reads_rows (by rw [hwidth]) _ _ _ (by omega) (rowCount_enough V _) fun k => ?_
    rw [decide_eq_decide, hwidth]
    omega
  · exact printsRead_rows _ _ _

theorem wordLine_visits (hwidth : V.width = 4) :
    Visits V (wordLine V startAddress (inPage P startAddress) range) (P.within startAddress / 4 * 4) range.toInt.toNat
      (fun _ => false) := by
  have hfirst : (inPage P startAddress &&& ~~~3).toNat = P.within startAddress / 4 * 4 := by
    rw [← inPage_toNat]
    exact @Bits.toNat_and_not_low 32 2 (inPage P startAddress)
  constructor
  · rw [wordLine, hfirst]
    simp only [Nat.shiftRight_eq_div_pow]
    rw [reads_lines _ 0 fun i => by omega, Nat.zero_mul, Nat.add_zero, Nat.mul_div_cancel _ (by decide)]
  · exact printsRead_lines _ 0

theorem wordTable_visits (hwidth : V.width = 4) (hsize : P.page ≤ V.size) :
    Visits V (wordTable V startAddress (inPage P startAddress) range) (P.within startAddress / 16 * 16)
      ((P.within startAddress + (range * 4).toInt - (P.within startAddress / 16 * 16 : Nat) + 3) / 4).toNat
      (fun pos => pos / 4 < P.within startAddress / 4) := by
  have hwithin := within_lt P startAddress
  have hfirst : (inPage P startAddress &&& ~~~15).toNat = P.within startAddress / 16 * 16 := by
    rw [← inPage_toNat]
    exact @Bits.toNat_and_not_low 32 4 (inPage P startAddress)
  rw [wordTable, hfirst, inPage_toNat]
  simp only [Nat.shiftRight_eq_div_pow, Nat.shiftLeft_eq]
  apply Visits.columns
  constructor
  · refine reads_rows (by rw [hwidth]) _ _ _ (by omega) (rowCount_enough V _) fun k => ?_
    rw [decide_eq_decide, hwidth]
    omega
  · exact printsRead_rows _ _ _

end Dumps

/-- A dump stays in the mapping and in the request if and only if its range fits. -/
theorem dumpMapped_stays_iff (P : Platform) (s : Settings) :
    let size := (mappedSize P s.startAddress (dumpBytes P s)).toNat
    Stays (P.view s.lengthFlag s.startAddress size) (dumpMapped P s size) (Requested P s s.range.toInt) ↔ Fits P s := by
  intro size
  have hpage : P.page ≤ size := by
    have := (dumpSize_cases P s size rfl).1
    omega
  have hinside : ∀ length pos, (P.view length s.startAddress size).inside pos = true ↔ pos + length.width ≤ size := by
    intro length pos
    exact decide_eq_true_iff
  unfold dumpMapped Fits
  cases hlength : s.lengthFlag with
  | byte =>
    cases hformat : s.formatFlag with
    | line =>
      have hfits := byte_fits_iff (P := P) (P.within s.startAddress) s.range.toInt.toNat hlength rfl (Nat.le_refl _) (by omega)
      rw [(byteLine_visits rfl).stays_iff]
      refine Iff.trans (forall_congr' fun k => imp_congr_right fun _ => ?_) hfits
      rw [hinside]
      simp [Platform.view, Length.width, size]
    | table =>
      have hfits := byte_fits_iff (P := P) (P.within s.startAddress / 16 * 16) _ hlength rfl (by omega) rfl
      rw [(byteTable_visits rfl hpage).stays_iff]
      refine Iff.trans (forall_congr' fun k => imp_congr_right fun _ => ?_) hfits
      rw [hinside]
      simp [Platform.view, Length.width, size]
  | word =>
    cases hformat : s.formatFlag with
    | line =>
      have hfits := wordLine_fits_iff (P := P) _ _ hlength rfl rfl rfl
      rw [(wordLine_visits rfl).stays_iff]
      refine Iff.trans (forall_congr' fun k => imp_congr_right fun _ => ?_) hfits
      rw [hinside]
      simp [Platform.view, Length.width, size]
    | table =>
      have hfits := wordTable_fits_iff (P := P) _ _ hlength rfl rfl rfl
      rw [(wordTable_visits rfl hpage).stays_iff]
      refine Iff.trans (forall_congr' fun k => imp_congr_right fun _ => ?_) hfits
      rw [hinside, decide_eq_false_iff_not, Nat.not_lt]
      exact Iff.rfl

/-! ## The runs -/

theorem map_eq (startaddress len : BitVec 32) :
    (map P startaddress len).2.slt 0 = !(P.opens && P.maps) ∧
      ((P.opens && P.maps) = true → map P startaddress len =
        ([.mapped (mappedSize P startaddress len).toNat], mappedSize P startaddress len)) ∧
      ((P.opens && P.maps) = false → ∃ text, (map P startaddress len).1 = [.say text]) := by
  obtain ⟨m, hm, hpos, hpage⟩ := page_bounds P
  have hcases := (mappedSize_toNat (P := P) startaddress len).1
  have hnonneg : (mappedSize P startaddress len).slt 0 = false := by
    rw [BitVec.slt_eq_decide, decide_eq_false_iff_not, BitVec.toInt_eq_toNat_of_lt (by omega)]
    simp
  unfold map
  cases P.opens with
  | false => exact ⟨rfl, by simp, fun _ => ⟨_, rfl⟩⟩
  | true =>
    cases P.maps with
    | false => exact ⟨rfl, by simp, fun _ => ⟨_, rfl⟩⟩
    | true => exact ⟨by simpa using hnonneg, by simp, by simp⟩

theorem safe_of_quiet {events : List Event} (hread : ∀ pos, .read pos ∉ events) (hstore : ∀ pos value, .store pos value ∉ events)
    (hcell : ∀ pos value, .cell pos value ∉ events) : Safe P s events :=
  ⟨fun pos h => (hread pos h).elim, fun pos value h => (hstore pos value h).elim,
    fun pos value h => (hcell pos value h).elim, fun pos value h => (hstore pos value h).elim⟩

/-- The one store of a run that mapped memory. -/
theorem safe_of_store (said : List Event) {size pos : Nat} {value : BitVec 32}
    (hquiet : ∀ e ∈ said, (∀ p, e ≠ .read p) ∧ (∀ p v, e ≠ .store p v) ∧ ∀ p v, e ≠ .cell p v)
    (hmapped : pos + s.lengthFlag.width ≤ size) (hrequested : Requested P s 1 pos) :
    Safe P s (.mapped size :: (said ++ [.store pos value])) := by
  have hstores : ∀ p v, .store p v ∈ .mapped size :: (said ++ [.store pos value]) → p = pos := by
    intro p v hmem
    have hsaid : .store p v ∉ said := fun h => (hquiet _ h).2.1 p v rfl
    have hlast : p = pos ∧ v = value := by simpa [hsaid] using hmem
    exact hlast.1
  constructor
  · intro p hmem
    have hsaid : .read p ∉ said := fun h => (hquiet _ h).1 p rfl
    simp [hsaid] at hmem
  · intro p v hmem
    exact ⟨size, List.mem_cons_self .., hstores p v hmem ▸ hmapped⟩
  · intro p v hmem
    have hsaid : .cell p v ∉ said := fun h => (hquiet _ h).2.2 p v rfl
    simp [hsaid] at hmem
  · intro p v hmem
    exact hstores p v hmem ▸ hrequested

/-- A write is always in the mapping, and is the unit at the start address. -/
theorem memWrite_safe (P : Platform) (s : Settings) : Safe P s (memWrite P s) := by
  obtain ⟨hslt, hmapped, hfailed⟩ := map_eq (P := P) s.startAddress (neededBytes s.lengthFlag 1)
  unfold memWrite
  dsimp only
  rw [hslt]
  cases hok : P.opens && P.maps with
  | false =>
    obtain ⟨text, htext⟩ := hfailed hok
    rw [htext]
    apply safe_of_quiet <;> simp
  | true =>
    rw [hmapped hok]
    have hsize := (mappedSize_toNat (P := P) s.startAddress (neededBytes s.lengthFlag 1)).1
    have hwithin := within_lt P s.startAddress
    obtain ⟨m, hm, hpos, -⟩ := page_bounds P
    cases hlength : s.lengthFlag with
    | byte =>
      have hpage : P.page ≤ (mappedSize P s.startAddress (neededBytes .byte 1)).toNat := by
        rw [hlength] at hsize
        omega
      refine safe_of_store [] (by simp) ?_ ?_
      · rw [hlength, inPage_toNat]
        show P.within s.startAddress + 1 ≤ _
        omega
      · simp only [Requested, hlength, Length.width, inPage_toNat]
        omega
    | word =>
      have hpage : P.page ≤ (mappedSize P s.startAddress (neededBytes .word 1)).toNat := by
        rw [hlength] at hsize
        omega
      have hunit : ((inPage P s.startAddress &&& ~~~3) >>> 2).toNat * 4 = P.within s.startAddress / 4 * 4 := by
        have hlow : (inPage P s.startAddress &&& ~~~3).toNat = (inPage P s.startAddress).toNat / 4 * 4 :=
          @Bits.toNat_and_not_low 32 2 _
        rw [BitVec.toNat_ushiftRight, hlow, inPage_toNat, Nat.shiftRight_eq_div_pow]
        omega
      refine safe_of_store [.writing s.writeValue (s.startAddress &&& ~~~3)] (by simp) ?_ ?_
      · rw [hlength, hunit]
        show P.within s.startAddress / 4 * 4 + 4 ≤ _
        omega
      · simp only [Requested, hlength, Length.width, hunit]
        omega

/-- A dump is safe if its range fits, where it comes to read at all. -/
theorem memDump_safe_iff (P : Platform) (s : Settings) :
    Safe P s (memDump P s) ↔ ((P.opens && P.maps) = true → Fits P s) := by
  obtain ⟨hslt, hmapped, hfailed⟩ := map_eq (P := P) s.startAddress (dumpBytes P s)
  unfold memDump
  dsimp only
  rw [hslt]
  generalize hsaid : (if P.pageSize.slt (neededBytes s.lengthFlag s.range) then
    [Event.say "The range is too big,reduce to page size"] else []) = said
  have hquiet : ∀ e ∈ said, ∃ text, e = .say text := by
    intro e he
    rw [← hsaid] at he
    split at he
    · exact ⟨_, List.mem_singleton.mp he⟩
    · cases he
  cases hok : P.opens && P.maps with
  | false =>
    obtain ⟨text, htext⟩ := hfailed hok
    rw [htext]
    have hall : ∀ e ∈ said ++ [.say text] ++ [], ∃ t, e = Event.say t := by
      intro e he
      rw [List.append_nil, List.mem_append] at he
      rcases he with he | he
      · exact hquiet e he
      · exact ⟨text, List.mem_singleton.mp he⟩
    refine iff_of_true (safe_of_quiet ?_ ?_ ?_) (by simp)
    · intro pos hmem
      obtain ⟨t, ht⟩ := hall _ hmem
      cases ht
    · intro pos value hmem
      obtain ⟨t, ht⟩ := hall _ hmem
      cases ht
    · intro pos value hmem
      obtain ⟨t, ht⟩ := hall _ hmem
      cases ht
  | true =>
    have hstays := dumpMapped_stays_iff P s
    dsimp only at hstays
    rw [hmapped hok, ← hstays]
    generalize hsize : (mappedSize P s.startAddress (dumpBytes P s)).toNat = size
    have hof := ofDump_dumpMapped (P := P) s size
    have hmem : ∀ e, (∀ t, e ≠ .say t) → e ≠ .mapped size →
        (e ∈ said ++ [.mapped size] ++ dumpMapped P s size ↔ e ∈ dumpMapped P s size) := by
      intro e hsay hmap
      have hnot : e ∉ said := fun h => by
        obtain ⟨t, ht⟩ := hquiet e h
        exact hsay t ht
      simp [hnot, hmap]
    have hthe : ∀ n, .mapped n ∈ said ++ [.mapped size] ++ dumpMapped P s size → n = size := by
      intro n hn
      by_contra hne
      have hin := (hmem (.mapped n) (by simp) (by simpa using hne)).mp hn
      cases hof _ hin
    have hmaps : Event.mapped size ∈ said ++ [.mapped size] ++ dumpMapped P s size := by simp
    have hinside : ∀ pos, (P.view s.lengthFlag s.startAddress size).inside pos = true ↔ pos + s.lengthFlag.width ≤ size :=
      fun pos => decide_eq_true_iff
    simp only [true_implies]
    constructor
    · intro hsafe
      constructor
      · intro pos hread
        obtain ⟨n, hn, hle⟩ := hsafe.read_mapped pos ((hmem _ (by simp) (by simp)).mpr hread)
        rw [hthe n hn] at hle
        exact (hinside pos).mpr hle
      · intro pos value hcell
        exact hsafe.cell_requested pos value ((hmem _ (by simp) (by simp)).mpr hcell)
    · rintro ⟨hread, hcell⟩
      constructor
      · intro pos h
        exact ⟨size, hmaps, (hinside pos).mp (hread pos ((hmem _ (by simp) (by simp)).mp h))⟩
      · intro pos value h
        cases hof _ ((hmem _ (by simp) (by simp)).mp h)
      · intro pos value h
        exact hcell pos value ((hmem _ (by simp) (by simp)).mp h)
      · intro pos value h
        cases hof _ ((hmem _ (by simp) (by simp)).mp h)

/-- Every run, with any options, stays in the mapping and in the request if and only if it dumps no
mapped memory, or a range that fits. -/
theorem access_safe_iff (P : Platform) (opts : List Opt) :
    Safe P (settings opts) (main P opts) ↔
      ((settings opts).func = some .dump → P.opens = true → P.maps = true → Fits P (settings opts)) := by
  unfold main
  dsimp only
  by_cases hopts : opts = []
  · rw [if_pos hopts, hopts]
    refine iff_of_true ?_ ?_
    · apply safe_of_quiet <;> simp
    · intro hfunc
      cases hfunc
  · rw [if_neg hopts]
    cases hfunc : (settings opts).func with
    | none => exact iff_of_true (by apply safe_of_quiet <;> simp) (by simp)
    | some func =>
      cases func with
      | help => exact iff_of_true (by apply safe_of_quiet <;> simp [hopts]) (by simp)
      | dump =>
        show Safe P (settings opts) (memDump P (settings opts)) ↔ _
        rw [memDump_safe_iff]
        simp
      | write => exact iff_of_true (memWrite_safe P (settings opts)) (by simp)
      | version => exact iff_of_true (by apply safe_of_quiet <;> simp) (by simp)

/-- Memory of zeros behind pages of 4 KiB. -/
def zeroMemory : Platform where
  pageBits := 12
  memory _ := 0
  bigEndian := false
  opens := true
  maps := true
  pageBits_ge := by decide
  pageBits_lt := by decide

/-- Two pages from a page boundary on: one is mapped, and the loop goes over both. -/
theorem dump_two_pages : ¬Safe zeroMemory (settings [.dump, .start 0x10000000, .range 8192])
    (main zeroMemory [.dump, .start 0x10000000, .range 8192]) := by
  have hrange : ¬Fits zeroMemory (settings [.dump, .start 0x10000000, .range 8192]) := by
    show ¬(((8192 : Int) ≤ 4096) ∨ ((0 : Int) ≠ 0 ∧ _))
    omega
  show ¬Safe _ _ (memDump zeroMemory (settings [.dump, .start 0x10000000, .range 8192]))
  rw [memDump_safe_iff]
  exact fun hall => hrange (hall rfl)

end Memutil
