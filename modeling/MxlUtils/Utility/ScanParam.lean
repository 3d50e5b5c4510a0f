import MxlUtils.Lib.Numeral
import MxlUtils.Utility.SplitBuffer

/- The parameters of a command of the user, tokens of the form name=value. `scanParamArg` takes the
   value of the first token with the name: a keyword, of which any beginning will do, or a number,
   which is cut to the size of the parameter. -/
namespace UserChoice
open CString

def tOlower (c : Char) : Char := if 'A' ≤ c ∧ c ≤ 'Z' then Char.ofNat (c.toNat + 'a'.toNat - 'A'.toNat) else c

/-- Whether `xstrncasecmp(s1, s2, n)` is 0. -/
def xstrncasecmp : List Char → List Char → Nat → Bool
  | _, _, 0 => true
  | [], [], _ + 1 => true
  | c1 :: s1, c2 :: s2, n + 1 => if tOlower c1 ≠ tOlower c2 then false else xstrncasecmp s1 s2 n
  | _, _, _ + 1 => false

/-- A token, or a null pointer, that has the value of a parameter. -/
def argParam (name : List Char) : Option (List Char) → Option (List Char)
  | none => none
  | some arg =>
    if xstrncasecmp name arg name.length ∧ arg.length > name.length + 1 ∧ arg[name.length]? = some '=' then
      some (arg.drop (name.length + 1))
    else none

def findArgParam (argv : List (Option (List Char))) (name : List Char) : Option (List Char) :=
  argv.findSome? (argParam name)

/-- `0 == xstrncasecmp(ptr, keyword, strlen(ptr))` -/
def isKeyword (ptr : List Char) (keyword : String) : Bool := xstrncasecmp ptr keyword.toList ptr.length

/-- The keyword that is recognised. -/
def keywordOf (ptr : List Char) : Option Nat :=
  if isKeyword ptr "LTQ_TRUE" ∨ isKeyword ptr "TRUE" ∨ isKeyword ptr "FULL" then some 1
  else if isKeyword ptr "LTQ_FALSE" ∨ isKeyword ptr "FALSE" ∨ isKeyword ptr "HALF" then some 0
  else none

/-- `tmp`, unless there are more characters behind the number. -/
def readParam (ptr : List Char) : Option Nat :=
  match keywordOf ptr with
  | some tmp => some tmp
  | none => if (strtoull0 64 ptr).2 ≠ [] then none else some (strtoull0 64 ptr).1

/-- The size in bits: up to 4 it is given in bytes. -/
def sizeBits (size : Int) : Int := if size ≤ 4 then size * 8 else size

/-- The sizes of which something is stored. -/
def isStored (size : Int) : Bool :=
  sizeBits size = 8 ∨ sizeBits size = 16 ∨ sizeBits size = 32 ∨ sizeBits size = 64

/-- What is returned, and the bits that are stored. -/
def scanParamArg (argv : List (Option (List Char))) (name : List Char) (size : Int) : Nat × Option Nat :=
  match (findArgParam argv name).bind readParam with
  | none => (0, none)
  | some tmp => (1, if isStored size then some (tmp % 2 ^ (sizeBits size).toNat) else none)

/-! ## Values -/

/-- Equal but for the case of letters. -/
def SameName (s t : List Char) : Prop := s.map tOlower = t.map tOlower

/-- A token that gives a parameter a value. -/
def Assigns (name : List Char) (arg : Option (List Char)) (value : List Char) : Prop :=
  ∃ n, SameName n name ∧ arg = some (n ++ '=' :: value)

/-- A keyword, and what it stands for. -/
inductive Keyword : List Char → Nat → Prop
  | isTrue {s : List Char} {k : String} : k ∈ ["LTQ_TRUE", "TRUE", "FULL"] → SameName s k.toList → Keyword s 1
  | isFalse {s : List Char} {k : String} : k ∈ ["LTQ_FALSE", "FALSE", "HALF"] → SameName s k.toList → Keyword s 0

/-- A number that all of a text is. -/
def Number (s : List Char) (z : Int) : Prop := ∃ n, numeral s = some n ∧ n.rest = [] ∧ n.toInt = z

/-- A number that has a place in so many bits, with a sign or without. -/
def Fits (bits : Nat) (z : Int) : Prop := -(2 ^ (bits - 1) : Nat) ≤ z ∧ z < (2 ^ bits : Nat)

/-- A value, and the bits that stand for it. -/
def Valid (size : Int) (value : List Char) (x : Nat) : Prop :=
  Keyword value x ∨ ∃ z, Number value z ∧ Fits (sizeBits size).toNat z ∧
    (x : Int) = z % (2 ^ (sizeBits size).toNat : Nat)

/-- Some token gives the parameter a value with these bits. -/
def Given (argv : List (Option (List Char))) (name : List Char) (size : Int) (x : Nat) : Prop :=
  ∃ arg ∈ argv, ∃ value, Assigns name arg value ∧ Valid size value x

/-- A value is stored, and 1 returned, exactly if some token gives one, and it is that of a token. -/
structure ScanRight (argv : List (Option (List Char))) (name : List Char) (size : Int) : Prop where
  stored : (∃ x, scanParamArg argv name size = (1, some x)) ↔ ∃ x, Given argv name size x
  value : ∀ x, (scanParamArg argv name size).2 = some x → Given argv name size x

/-- The first token with the name begins a keyword without being one, is a number that does not fit,
or is nothing of both while another token has a value; or the size is none of which something is
stored. What is stored may still be what another token says. -/
inductive ScanSlips (argv : List (Option (List Char))) (name : List Char) (size : Int) : Prop
  | begun {value : List Char} {x : Nat} : isStored size = true → findArgParam argv name = some value →
      keywordOf value = some x → (∀ x', ¬ Keyword value x') → ¬ Given argv name size x → ScanSlips argv name size
  | cut {value : List Char} {z : Int} : isStored size = true → findArgParam argv name = some value →
      keywordOf value = none → Number value z → ¬ Fits (sizeBits size).toNat z →
      ¬ Given argv name size ((strtoull0 64 value).1 % 2 ^ (sizeBits size).toNat) → ScanSlips argv name size
  | hidden {value : List Char} {x : Nat} : findArgParam argv name = some value → keywordOf value = none →
      (∀ z, ¬ Number value z) → Given argv name size x → ScanSlips argv name size
  | unsized {x : Nat} : isStored size = false → Given argv name size x → ScanSlips argv name size

section Names
variable {s t : List Char} {name value : List Char} {arg : Option (List Char)}

theorem xstrncasecmp_iff : xstrncasecmp s t s.length = true ↔ s.map tOlower <+: t.map tOlower := by
  induction s generalizing t with
  | nil => simp [xstrncasecmp]
  | cons c s ih =>
    cases t with
    | nil => simp [xstrncasecmp]
    | cons d t =>
      rw [List.length_cons, xstrncasecmp]
      by_cases h : tOlower c = tOlower d
      · rw [if_neg (not_not.mpr h), ih, List.map_cons, List.map_cons, h, List.cons_prefix_cons]
        simp
      · rw [if_pos h, List.map_cons, List.map_cons, List.cons_prefix_cons]
        simp [h]

/-- The value of a token is what is behind the name and an equals sign, if there is anything. -/
theorem argParam_iff : argParam name arg = some value ↔ value ≠ [] ∧ Assigns name arg value := by
  cases arg with
  | none => simp [argParam, Assigns]
  | some arg =>
    rw [argParam]
    constructor
    · intro h
      split at h
      case isFalse => cases h
      case isTrue hmatch =>
        obtain ⟨hcmp, hlen, heq⟩ := hmatch
        obtain rfl := Option.some.inj h
        obtain ⟨hlt, hget⟩ := List.getElem?_eq_some_iff.mp heq
        have hsplit : arg = arg.take name.length ++ '=' :: arg.drop (name.length + 1) := by
          rw [← hget, ← List.drop_eq_getElem_cons hlt, List.take_append_drop]
        have hname : SameName (arg.take name.length) name := by
          have hprefix := (xstrncasecmp_iff).mp hcmp
          rw [SameName, List.map_take]
          exact (List.prefix_iff_eq_take.mp hprefix).symm ▸ (by simp)
        refine ⟨fun hnil => ?_, _, hname, congrArg some hsplit⟩
        rw [List.drop_eq_nil_iff] at hnil
        omega
    · rintro ⟨hne, n, hname, harg⟩
      obtain rfl := Option.some.inj harg
      have hlen : n.length = name.length := by simpa using congrArg List.length hname
      have hpos := List.length_pos_iff.mpr hne
      rw [if_pos]
      · have hdrop : (n ++ ['='] ++ value).drop (n ++ ['=']).length = value := List.drop_left
        rw [← hlen, ← List.singleton_append, ← List.append_assoc]
        rw [List.length_append, List.length_singleton] at hdrop
        rw [hdrop]
      · refine ⟨(xstrncasecmp_iff).mpr ?_, ?_, ?_⟩
        · rw [List.map_append, hname]
          exact List.prefix_append _ _
        · simp only [List.length_append, List.length_cons]
          omega
        · rw [← hlen]
          simp

end Names

section Found
variable {argv : List (Option (List Char))} {name value : List Char} {size : Int} {x : Nat}

theorem assigns_of_found (h : findArgParam argv name = some value) :
    value ≠ [] ∧ ∃ arg ∈ argv, Assigns name arg value := by
  obtain ⟨arg, harg, hvalue⟩ := List.exists_of_findSome?_eq_some h
  obtain ⟨hne, hassigns⟩ := (argParam_iff).mp hvalue
  exact ⟨hne, arg, harg, hassigns⟩

theorem ne_nil_of_valid (h : Valid size value x) : value ≠ [] := by
  rintro rfl
  rcases h with hkeyword | ⟨z, ⟨n, hn, -⟩, -⟩
  · cases hkeyword with
    | isTrue hk hsame | isFalse hk hsame =>
      have hlen := congrArg List.length hsame
      simp only [List.map_nil, List.length_map, List.length_nil, String.length_toList] at hlen
      simp only [List.mem_cons, List.not_mem_nil, or_false] at hk
      rcases hk with rfl | rfl | rfl <;> cases hlen
  · rw [numeral_nil] at hn
    cases hn

theorem found_of_given (h : Given argv name size x) : ∃ value, findArgParam argv name = some value := by
  obtain ⟨arg, harg, value, hassigns, hvalid⟩ := h
  have hsome : argParam name arg = some value := (argParam_iff).mpr ⟨ne_nil_of_valid hvalid, hassigns⟩
  cases hfound : findArgParam argv name with
  | some v => exact ⟨v, rfl⟩
  | none =>
    rw [List.findSome?_eq_none_iff.mp hfound arg harg] at hsome
    cases hsome

end Found

section Read
variable {value : List Char} {x y : Nat} {z : Int}

theorem keywordOf_congr {s t : List Char} (h : SameName s t) : keywordOf s = keywordOf t := by
  have hone (k : String) : isKeyword s k = isKeyword t k := by
    rw [Bool.eq_iff_iff, isKeyword, isKeyword, xstrncasecmp_iff, xstrncasecmp_iff, h]
  simp only [keywordOf, hone]

/-- A whole keyword is taken for what it is. -/
theorem keywordOf_of_keyword (h : Keyword value x) : keywordOf value = some x := by
  cases h with
  | isTrue hk hsame | isFalse hk hsame =>
    rw [keywordOf_congr hsame]
    simp only [List.mem_cons, List.not_mem_nil, or_false] at hk
    rcases hk with rfl | rfl | rfl <;> decide

theorem keywordOf_lt (h : keywordOf value = some x) : x < 2 := by
  unfold keywordOf at h
  split_ifs at h <;> obtain rfl := Option.some.inj h <;> decide

theorem readParam_of_none (h : keywordOf value = none) :
    readParam value = if (strtoull0 64 value).2 ≠ [] then none else some (strtoull0 64 value).1 := by
  rw [readParam, h]

/-- A text that is read to its end is a number. -/
theorem number_iff (hne : value ≠ []) : (strtoull0 64 value).2 = [] ↔ ∃ z, Number value z := by
  unfold strtoull0 Number
  cases hn : numeral value with
  | none => simpa using hne
  | some n => simp

theorem valid_of_number {size : Int} (hstored : isStored size = true) (h : Number value z)
    (hfits : Fits (sizeBits size).toNat z) :
    Valid size value ((strtoull0 64 value).1 % 2 ^ (sizeBits size).toNat) := by
  obtain ⟨n, hn, hrest, rfl⟩ := h
  refine .inr ⟨n.toInt, ⟨n, hn, hrest, rfl⟩, hfits, ?_⟩
  have hbits : (sizeBits size).toNat ≤ 64 ∧ 0 < (sizeBits size).toNat := by
    simp only [isStored, Bool.decide_or, Bool.or_eq_true, decide_eq_true_eq] at hstored
    omega
  rw [strtoull0, hn]
  exact toUnsigned_mod hbits.1 hbits.2 hfits.1 hfits.2

end Read

section Scan
variable {argv : List (Option (List Char))} {name value : List Char} {size : Int} {x : Nat}

theorem scanParamArg_of_read (hfound : findArgParam argv name = some value) (hread : readParam value = some x)
    (hstored : isStored size = true) :
    scanParamArg argv name size = (1, some (x % 2 ^ (sizeBits size).toNat)) := by
  rw [scanParamArg, hfound, Option.bind_some, hread]
  simp [hstored]

/-- What is stored was read from the first token with the name. -/
theorem read_of_stored (h : (scanParamArg argv name size).2 = some x) : isStored size = true ∧
    ∃ value tmp, findArgParam argv name = some value ∧ readParam value = some tmp ∧
      x = tmp % 2 ^ (sizeBits size).toNat := by
  unfold scanParamArg at h
  cases hread : (findArgParam argv name).bind readParam with
  | none => simp [hread] at h
  | some tmp =>
    obtain ⟨value, hfound, htmp⟩ := Option.bind_eq_some_iff.mp hread
    simp only [hread] at h
    split at h
    · rename_i hstored
      exact ⟨hstored, value, tmp, hfound, htmp, (Option.some.inj h).symm⟩
    · cases h

theorem mod_of_keyword (h : keywordOf value = some x) (hstored : isStored size = true) :
    x % 2 ^ (sizeBits size).toNat = x := by
  have hbits : 1 ≤ (sizeBits size).toNat := by
    simp only [isStored, Bool.decide_or, Bool.or_eq_true, decide_eq_true_eq] at hstored
    omega
  have hpow : 2 ^ 1 ≤ 2 ^ (sizeBits size).toNat := Nat.pow_le_pow_right (by decide) hbits
  exact Nat.mod_eq_of_lt (Nat.lt_of_lt_of_le (keywordOf_lt h) hpow)

theorem readParam_of_keyword (h : keywordOf value = some x) : readParam value = some x := by
  rw [readParam, h]

/-- A parameter gets the value of a token, or none if no token has one, unless the first token with
the name slips. -/
theorem scanRight_iff (argv : List (Option (List Char))) (name : List Char) (size : Int) :
    ScanRight argv name size ↔ ¬ ScanSlips argv name size := by
  constructor
  · intro h hslips
    cases hslips with
    | begun hstored hfound hkeyword _ hnot =>
      have hscan := scanParamArg_of_read hfound (readParam_of_keyword hkeyword) hstored
      rw [mod_of_keyword hkeyword hstored] at hscan
      exact hnot (h.value _ (congrArg Prod.snd hscan))
    | cut hstored hfound hkeyword hnumber _ hnot =>
      have hend := (number_iff (assigns_of_found hfound).1).mpr ⟨_, hnumber⟩
      have hread := readParam_of_none hkeyword
      rw [if_neg (not_not.mpr hend)] at hread
      exact hnot (h.value _ (congrArg Prod.snd (scanParamArg_of_read hfound hread hstored)))
    | hidden hfound hkeyword hnumber hgiven =>
      obtain ⟨x, hx⟩ := h.stored.mpr ⟨_, hgiven⟩
      obtain ⟨-, value, tmp, hfound', hread, -⟩ := read_of_stored (congrArg Prod.snd hx)
      obtain rfl := Option.some.inj (hfound.symm.trans hfound')
      rw [readParam_of_none hkeyword, if_pos] at hread
      · cases hread
      · intro hend
        obtain ⟨z, hz⟩ := (number_iff (assigns_of_found hfound).1).mp hend
        exact hnumber z hz
    | unsized hstored hgiven =>
      obtain ⟨x, hx⟩ := h.stored.mpr ⟨_, hgiven⟩
      obtain ⟨hstored', -⟩ := read_of_stored (congrArg Prod.snd hx)
      rw [hstored] at hstored'
      cases hstored'
  · intro hslips
    have hvalue : ∀ x, (scanParamArg argv name size).2 = some x → Given argv name size x := by
      intro x hx
      obtain ⟨hstored, value, tmp, hfound, hread, rfl⟩ := read_of_stored hx
      obtain ⟨hne, arg, harg, hassigns⟩ := assigns_of_found hfound
      cases hkeyword : keywordOf value with
      | some y =>
        obtain rfl : y = tmp := Option.some.inj ((readParam_of_keyword hkeyword).symm.trans hread)
        rw [mod_of_keyword hkeyword hstored]
        by_contra hnot
        refine hslips (.begun hstored hfound hkeyword (fun x' hx' => hnot ?_) hnot)
        obtain rfl : y = x' := Option.some.inj (hkeyword.symm.trans (keywordOf_of_keyword hx'))
        exact ⟨arg, harg, value, hassigns, .inl hx'⟩
      | none =>
        rw [readParam_of_none hkeyword] at hread
        split at hread
        · cases hread
        · rename_i hend
          obtain rfl := Option.some.inj hread
          obtain ⟨z, hnumber⟩ := (number_iff hne).mp (not_not.mp hend)
          by_contra hnot
          refine hslips (.cut hstored hfound hkeyword hnumber (fun hfits => hnot ?_) hnot)
          exact ⟨arg, harg, value, hassigns, valid_of_number hstored hnumber hfits⟩
    refine ⟨⟨fun ⟨x, hx⟩ => ⟨x, hvalue x (congrArg Prod.snd hx)⟩, ?_⟩, hvalue⟩
    rintro ⟨x, hgiven⟩
    obtain ⟨value, hfound⟩ := found_of_given hgiven
    have hstored : isStored size = true := by
      by_contra hnot
      exact hslips (.unsized (by simpa using hnot) hgiven)
    cases hkeyword : keywordOf value with
    | some y => exact ⟨_, scanParamArg_of_read hfound (readParam_of_keyword hkeyword) hstored⟩
    | none =>
      by_cases hend : (strtoull0 64 value).2 = []
      · have hread := readParam_of_none hkeyword
        rw [if_neg (not_not.mpr hend)] at hread
        exact ⟨_, scanParamArg_of_read hfound hread hstored⟩
      · have hnumber : ∀ z, ¬ Number value z :=
          fun z hz => hend ((number_iff (assigns_of_found hfound).1).mpr ⟨z, hz⟩)
        exact absurd (.hidden hfound hkeyword hnumber hgiven) hslips

end Scan

/-- Taking a line apart and looking a parameter up in tokens. -/
theorem splitRight_scanRight_iff (line : Line) (maxParamNum : Nat) (argv : List (Option (List Char)))
    (name : List Char) (size : Int) :
    (SplitRight line maxParamNum ↔ ¬ SplitSlips line maxParamNum) ∧
      (ScanRight argv name size ↔ ¬ ScanSlips argv name size) :=
  ⟨splitRight_iff line maxParamNum, scanRight_iff argv name size⟩

/-- `a`, a carriage return behind a space, and `b`. -/
def returnLine : Line := ⟨['a', ' ', '\r', 'b'], by decide⟩

/-- A token behind a carriage return is taken for one of the line, and `f` for a keyword. -/
theorem not_splitRight_scanRight : ¬ SplitRight returnLine 2 ∧ ¬ ScanRight [some ['v', '=', 'f']] ['v'] 2 := by
  constructor
  · intro h
    refine (splitRight_iff returnLine 2).mp h ⟨['a', ' '], ['b'], rfl, by decide, ?_, by decide, 'b', ?_, by decide⟩
    · intro c hc
      obtain rfl := Option.some.inj hc
      decide
    · decide
  · intro h
    have hkeyword : ∀ x, ¬ Keyword ['f'] x := by
      intro x hx
      cases hx with
      | isTrue hk hsame | isFalse hk hsame =>
        simp only [List.mem_cons, List.not_mem_nil, or_false] at hk
        rcases hk with rfl | rfl | rfl <;> exact absurd (congrArg List.length hsame) (by decide)
    have hgiven : ∀ x, ¬ Given [some ['v', '=', 'f']] ['v'] 2 x := by
      rintro x ⟨arg, harg, value, hassigns, hvalid⟩
      obtain rfl := List.mem_singleton.mp harg
      have hvalue := (argParam_iff).mpr ⟨ne_nil_of_valid hvalid, hassigns⟩
      obtain rfl : ['f'] = value := Option.some.inj hvalue
      rcases hvalid with hx | ⟨z, ⟨n, hn, -⟩, -⟩
      · exact hkeyword x hx
      · cases hn
    have hstored : scanParamArg [some ['v', '=', 'f']] ['v'] 2 = (1, some 1) := by decide
    exact hgiven 1 (h.value 1 (congrArg Prod.snd hstored))

end UserChoice
