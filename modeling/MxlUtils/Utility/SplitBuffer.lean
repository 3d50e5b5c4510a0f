import Mathlib.Data.List.TakeWhile
import MxlUtils.Lib.CString
import MxlUtils.Lib.Tokens

/- How the firmware tool takes a line of the user apart. `split_buffer` writes a NUL behind each
   token and stores where it begins; it skips spaces and carriage returns before a token, but a
   carriage return right behind one ends the line. -/
namespace UserChoice
open CString Tokens

/-- A string of C, up to its NUL. -/
structure Line where
  text : List Char
  noNul : ∀ c ∈ text, c ≠ NUL

def CR : Char := '\r'
def LF : Char := '\n'

/-- `*len && (**p == ' ' || **p == '\r' || **p == '\r')` -/
def isLeading (c : Char) : Bool := c = ' ' ∨ c = CR ∨ c = CR

/-- The condition of the loop over a token, but for the NUL. -/
def isTokenChar (c : Char) : Bool := c ≠ ' ' ∧ c ≠ CR ∧ c ≠ LF ∧ c ≠ '\t'

/-- The buffer with the cursor between what is behind it and what is before it, without the NUL at
its end. -/
structure Cursor where
  passed : List Char
  rest : List Char

def removeLeadingWhitespace (s : Cursor) : Cursor :=
  ⟨s.passed ++ s.rest.takeWhile isLeading, s.rest.dropWhile isLeading⟩

/-- `if (!array[i]) array[i] = buffer`, which is out of bounds behind the array. -/
def store (array : List (Option Nat)) (i pos : Nat) : Option (List (Option Nat)) :=
  match array[i]? with
  | none => none
  | some none => some (array.set i (some pos))
  | some (some _) => some array

/-- The loop over the characters of a token: `set_copy`, the array and the buffer. -/
def copyToken (i : Nat) (setCopy : Bool) (array : List (Option Nat)) (passed : List Char) :
    List Char → Option (Bool × List (Option Nat) × Cursor)
  | [] => some (setCopy, array, ⟨passed, []⟩)
  | c :: cs =>
    if isTokenChar c then
      match store array i passed.length with
      | none => none
      | some array => copyToken i true array (passed ++ [c]) cs
    else some (setCopy, array, ⟨passed, c :: cs⟩)

/-- The number of tokens, where they begin, and the buffer with its NULs. -/
structure Split where
  count : Nat
  array : List (Option Nat)
  buffer : List Char

def endsLine (c : Char) : Bool := c = CR ∨ c = LF

/-- The loop over the tokens, with `fuel` rounds at most. -/
def splitLoop (maxParamNum : Nat) : Nat → Nat → List (Option Nat) → Cursor → Option Split
  | 0, _, _, _ => none
  | fuel + 1, i, array, s =>
    if i < maxParamNum then
      match copyToken i false array (removeLeadingWhitespace s).passed (removeLeadingWhitespace s).rest with
      | none => none
      | some (true, array, ⟨passed, []⟩) => some ⟨i + 1, array, passed ++ [NUL]⟩
      | some (true, array, ⟨passed, c :: cs⟩) =>
        if endsLine c then some ⟨i + 1, array, passed ++ NUL :: cs ++ [NUL]⟩
        else splitLoop maxParamNum fuel (i + 1) array ⟨passed ++ [NUL], cs⟩
      | some (false, array, ⟨passed, []⟩) => some ⟨i, array, passed ++ [NUL]⟩
      | some (false, array, ⟨passed, c :: cs⟩) =>
        if endsLine c then some ⟨i, array, passed ++ c :: cs ++ [NUL]⟩
        else splitLoop maxParamNum fuel i array ⟨passed ++ [c], cs⟩
    else some ⟨i, array, s.passed ++ s.rest ++ [NUL]⟩

/-- A round of the loop leaves at least one character behind, or is the last. -/
def splitBuffer (line : Line) (maxParamNum : Nat) : Option Split :=
  splitLoop maxParamNum (line.text.length + 1) 0 (List.replicate maxParamNum none) ⟨[], line.text⟩

/-! ## What is stored -/

/-- The string at an offset of the buffer. -/
def stringAt (buffer : List Char) (pos : Nat) : List Char := cstr (buffer.drop pos)

/-- The array has the given tokens, and no more. -/
structure Split.Yields (out : Split) (maxParamNum : Nat) (tokens : List (List Char)) : Prop where
  array : ∃ places : List Nat, out.array = places.map some ++ List.replicate (maxParamNum - places.length) none ∧
    places.length ≤ maxParamNum ∧ places.map (stringAt out.buffer) = tokens
  count : out.count = tokens.length

/-- The text up to where the loop takes it to end: a newline, or a carriage return behind a token. -/
def cut : Bool → List Char → List Char
  | _, [] => []
  | behind, c :: cs =>
    if c = LF ∨ c = CR ∧ behind = true then [] else c :: cut (isTokenChar c) cs

def isBlank (c : Char) : Bool := !isTokenChar c

section Classes
variable {c : Char}

theorem isLeading_cases (h : isLeading c = true) : c = ' ' ∨ c = CR := by
  simpa [isLeading] using h

theorem not_isTokenChar_cases (h : isTokenChar c = false) : c = ' ' ∨ c = CR ∨ c = LF ∨ c = '\t' := by
  by_contra hnot
  simp only [not_or] at hnot
  simp [isTokenChar, hnot] at h

theorem isBlank_eq_false (h : isTokenChar c = true) : isBlank c = false := by rw [isBlank, h]; rfl

theorem isBlank_of_not (h : isTokenChar c = false) : isBlank c = true := by rw [isBlank, h]; rfl

theorem not_isTokenChar_of_isLeading (h : isLeading c = true) : isTokenChar c = false := by
  rcases isLeading_cases h with rfl | rfl <;> decide

theorem endsLine_iff : endsLine c = true ↔ c = CR ∨ c = LF := by simp [endsLine]

theorem ne_of_isTokenChar (h : isTokenChar c = true) : c ≠ LF ∧ c ≠ CR := by
  constructor
  · rintro rfl
    exact absurd h (by decide)
  · rintro rfl
    exact absurd h (by decide)

end Classes

/-! ## The fields of the text that is cut -/

section Cut
variable {text cs w : List Char} {c : Char}

theorem cut_leading {b : List Char} (hb : ∀ c ∈ b, isLeading c = true) (t : List Char) :
    cut false (b ++ t) = b ++ cut false t := by
  induction b with
  | nil => rfl
  | cons c b ih =>
    obtain ⟨hc, hb⟩ := List.forall_mem_cons.mp hb
    have hnot : ¬ (c = LF ∨ c = CR ∧ false = true) := by
      rcases isLeading_cases hc with rfl | rfl <;> decide
    rw [List.cons_append, cut, if_neg hnot, not_isTokenChar_of_isLeading hc, ih hb, List.cons_append]

theorem cut_run (hne : w ≠ []) (hw : ∀ c ∈ w, isTokenChar c = true) (behind : Bool) (r : List Char) :
    cut behind (w ++ r) = w ++ cut true r := by
  induction w generalizing behind with
  | nil => exact absurd rfl hne
  | cons c w ih =>
    obtain ⟨hc, hw⟩ := List.forall_mem_cons.mp hw
    obtain ⟨hlf, hcr⟩ := ne_of_isTokenChar hc
    rw [List.cons_append, cut, if_neg (by simp [hlf, hcr]), hc]
    cases w with
    | nil => rfl
    | cons d w =>
      rw [ih (by simp) hw]
      rfl

theorem cut_endsLine (h : endsLine c = true) : cut true (c :: cs) = [] := by
  rw [cut, if_pos]
  rcases (endsLine_iff).mp h with rfl | rfl
  · exact .inr ⟨rfl, rfl⟩
  · exact .inl rfl

theorem cut_blank (hc : isTokenChar c = false) (h : endsLine c = false) (behind : Bool) :
    cut behind (c :: cs) = c :: cut false cs := by
  have hnot : ¬ (c = CR ∨ c = LF) := fun hor => by
    rw [(endsLine_iff).mpr hor] at h
    cases h
  rw [cut, if_neg (by tauto), hc]

theorem isBlank_false_of_run (hw : ∀ c ∈ w, isTokenChar c = true) : ∀ c ∈ w, isBlank c = false :=
  fun c hc => isBlank_eq_false (hw c hc)

end Cut

/-! ## The loop over a token -/

section Copy
variable {i pos : Nat} {array : List (Option Nat)} {passed w r : List Char} {setCopy : Bool}

theorem copyToken_stop (hr : ∀ c, r.head? = some c → isTokenChar c = false) :
    copyToken i setCopy array passed r = some (setCopy, array, ⟨passed, r⟩) := by
  cases r with
  | nil => rfl
  | cons c r => rw [copyToken, if_neg (by simp [hr c rfl])]

/-- A place that is stored stays. -/
theorem copyToken_more (harray : array[i]? = some (some pos)) (hw : ∀ c ∈ w, isTokenChar c = true)
    (hr : ∀ c, r.head? = some c → isTokenChar c = false) :
    copyToken i true array passed (w ++ r) = some (true, array, ⟨passed ++ w, r⟩) := by
  induction w generalizing passed with
  | nil => rw [List.nil_append, copyToken_stop hr, List.append_nil]
  | cons c w ih =>
    obtain ⟨hc, hw⟩ := List.forall_mem_cons.mp hw
    have hstore : store array i passed.length = some array := by rw [store, harray]
    rw [List.cons_append, copyToken, if_pos hc, hstore]
    exact (ih hw).trans (by rw [List.append_assoc, List.singleton_append])

/-- The place of a token is stored once, at its first character. -/
theorem copyToken_token (harray : array[i]? = some none) (hne : w ≠ []) (hw : ∀ c ∈ w, isTokenChar c = true)
    (hr : ∀ c, r.head? = some c → isTokenChar c = false) :
    copyToken i setCopy array passed (w ++ r) =
      some (true, array.set i (some passed.length), ⟨passed ++ w, r⟩) := by
  cases w with
  | nil => exact absurd rfl hne
  | cons c w =>
    obtain ⟨hc, hw⟩ := List.forall_mem_cons.mp hw
    have hstore : store array i passed.length = some (array.set i (some passed.length)) := by rw [store, harray]
    have hi : i < array.length := (List.getElem?_eq_some_iff.mp harray).1
    have hset : (array.set i (some passed.length))[i]? = some (some passed.length) := by
      rw [List.getElem?_set_self hi]
    rw [List.cons_append, copyToken, if_pos hc, hstore]
    exact (copyToken_more hset hw hr).trans (by rw [List.append_assoc, List.singleton_append])

end Copy

/-! ## The loop over the tokens -/

/-- The array while the loop runs: the places so far, and behind them it is clear. -/
def arrayOf (maxParamNum : Nat) (places : List Nat) : List (Option Nat) :=
  places.map some ++ List.replicate (maxParamNum - places.length) none

section Array
variable {maxParamNum pos : Nat} {places : List Nat}

theorem getElem?_arrayOf (h : places.length < maxParamNum) :
    (arrayOf maxParamNum places)[places.length]? = some none := by
  rw [arrayOf, List.getElem?_append_right (by simp), List.length_map, Nat.sub_self, List.getElem?_replicate,
    if_pos (by omega)]

theorem set_arrayOf (h : places.length < maxParamNum) :
    (arrayOf maxParamNum places).set places.length (some pos) = arrayOf maxParamNum (places ++ [pos]) := by
  obtain ⟨n, hn⟩ : ∃ n, maxParamNum - places.length = n + 1 := ⟨maxParamNum - places.length - 1, by omega⟩
  have hrest : maxParamNum - (places ++ [pos]).length = n := by
    rw [List.length_append, List.length_singleton]
    omega
  rw [arrayOf, arrayOf, hn, hrest, List.set_append_right (s := places.map some) _ _ (by simp)]
  simp [List.replicate_succ]

end Array

/-- The tokens are in what the loop has left behind, whatever follows. -/
def Held (passed : List Char) (places : List Nat) (tokens : List (List Char)) : Prop :=
  ∀ suffix, places.map (stringAt (passed ++ suffix)) = tokens

section Held
variable {passed w : List Char} {places : List Nat} {tokens : List (List Char)}

theorem Held.append (h : Held passed places tokens) (s : List Char) : Held (passed ++ s) places tokens := by
  intro suffix
  rw [List.append_assoc]
  exact h (s ++ suffix)

theorem cstr_of_nul (hw : ∀ c ∈ w, c ≠ NUL) (s : List Char) : cstr (w ++ NUL :: s) = w := by
  rw [cstr_append hw]
  simp [cstr]

theorem Held.token (h : Held passed places tokens) (hw : ∀ c ∈ w, c ≠ NUL) :
    Held (passed ++ w ++ [NUL]) (places ++ [passed.length]) (tokens ++ [w]) := by
  intro suffix
  have hlast : stringAt (passed ++ w ++ [NUL] ++ suffix) passed.length = w := by
    rw [stringAt, List.append_assoc, List.append_assoc, List.drop_left]
    exact cstr_of_nul hw suffix
  have hbefore := (h.append w).append [NUL] suffix
  rw [List.map_append, List.map_singleton, hlast, hbefore]

/-- What the loop leaves when it ends with these places. -/
theorem Held.yields {maxParamNum : Nat} (h : Held passed places tokens) (hle : places.length ≤ maxParamNum)
    (s : List Char) :
    Split.Yields ⟨places.length, arrayOf maxParamNum places, passed ++ s⟩ maxParamNum tokens := by
  refine ⟨⟨places, rfl, hle, h s⟩, ?_⟩
  rw [← h s, List.length_map]

end Held

/-- The parts of the text before the cursor in a round of the loop: what is skipped, the token, and
what is behind it. -/
structure Parts (rest b w r : List Char) : Prop where
  eq : rest = b ++ (w ++ r)
  leading : ∀ c ∈ b, isLeading c = true
  token : ∀ c ∈ w, isTokenChar c = true
  behind : ∀ c, r.head? = some c → isTokenChar c = false
  bare : w = [] → ∀ c, r.head? = some c → isLeading c = false

theorem head?_dropWhile_not (q : Char → Bool) (s : List Char) {c : Char} (h : (s.dropWhile q).head? = some c) :
    q c = false := by
  have hnot := List.head?_dropWhile_not q s
  rw [h] at hnot
  exact Bool.not_eq_true _ ▸ (by simpa using hnot)

theorem removeLeadingWhitespace_parts (passed rest : List Char) : ∃ b w r, Parts rest b w r ∧
    removeLeadingWhitespace ⟨passed, rest⟩ = ⟨passed ++ b, w ++ r⟩ := by
  refine ⟨rest.takeWhile isLeading, (rest.dropWhile isLeading).takeWhile isTokenChar,
    (rest.dropWhile isLeading).dropWhile isTokenChar, ⟨?_, ?_, ?_, ?_, ?_⟩, ?_⟩
  · rw [List.takeWhile_append_dropWhile, List.takeWhile_append_dropWhile]
  · exact fun c hc => List.mem_takeWhile_imp hc
  · exact fun c hc => List.mem_takeWhile_imp hc
  · exact fun c => head?_dropWhile_not _ _
  · intro hw c hc
    have hall := List.takeWhile_append_dropWhile (p := isTokenChar) (l := rest.dropWhile isLeading)
    rw [hw, List.nil_append] at hall
    rw [hall] at hc
    exact head?_dropWhile_not _ _ hc
  · rw [removeLeadingWhitespace, List.takeWhile_append_dropWhile]

section Fields
variable {rest b w cs : List Char} {c : Char}

theorem fields_cut_parts {r : List Char} (h : Parts rest b w r) :
    fields isBlank (cut false rest) = fields isBlank (cut false (w ++ r)) := by
  rw [h.eq, cut_leading h.leading, fields_blanks_append]
  exact fun c hc => isBlank_of_not (not_isTokenChar_of_isLeading (h.leading c hc))

/-- A token at the end of the line is the last. -/
theorem fields_cut_last {r : List Char} (h : Parts rest b w r) (hne : w ≠ [])
    (hr : ∀ c, r.head? = some c → endsLine c = true) : fields isBlank (cut false rest) = [w] := by
  have hend : cut true r = [] := by
    cases r with
    | nil => rfl
    | cons c r => exact cut_endsLine (hr c rfl)
  rw [fields_cut_parts h, cut_run hne h.token, hend, List.append_nil,
    fields_of_run hne (isBlank_false_of_run h.token)]

theorem fields_cut_token (h : Parts rest b w (c :: cs)) (hne : w ≠ []) (hc : endsLine c = false) :
    fields isBlank (cut false rest) = w :: fields isBlank (cut false cs) := by
  have hblank := h.behind c rfl
  rw [fields_cut_parts h, cut_run hne h.token, cut_blank hblank hc,
    fields_run_append hne (isBlank_false_of_run h.token) (isBlank_of_not hblank)]

theorem fields_cut_none {r : List Char} (h : Parts rest b [] r)
    (hr : ∀ c, r.head? = some c → endsLine c = true) : fields isBlank (cut false rest) = [] := by
  rw [fields_cut_parts h, List.nil_append]
  cases r with
  | nil => rfl
  | cons c r =>
    -- a carriage return would have been skipped
    have hcr : c ≠ CR := by
      rintro rfl
      exact absurd (h.bare rfl CR rfl) (by decide)
    have hlf : c = LF := (endsLine_iff.mp (hr c rfl)).resolve_left hcr
    rw [cut, if_pos (.inl hlf), fields_nil]

theorem fields_cut_skip (h : Parts rest b [] (c :: cs)) (hc : endsLine c = false) :
    fields isBlank (cut false rest) = fields isBlank (cut false cs) := by
  have hblank := h.behind c rfl
  rw [fields_cut_parts h, List.nil_append, cut_blank hblank hc, fields_blank_cons (isBlank_of_not hblank)]

end Fields

/-- From any round on the loop ends, and has then stored the fields of the rest too, up to the limit. -/
theorem splitLoop_yields {maxParamNum fuel : Nat} {places : List Nat} {tokens : List (List Char)}
    {passed rest : List Char} (hfuel : rest.length < fuel) (hle : places.length ≤ maxParamNum)
    (hheld : Held passed places tokens) (hrest : ∀ c ∈ rest, c ≠ NUL) :
    ∃ out, splitLoop maxParamNum fuel places.length (arrayOf maxParamNum places) ⟨passed, rest⟩ = some out ∧
      out.Yields maxParamNum
        (tokens ++ (fields isBlank (cut false rest)).take (maxParamNum - places.length)) := by
  induction fuel generalizing places tokens passed rest with
  | zero => omega
  | succ fuel ih =>
    rw [splitLoop]
    by_cases hlt : places.length < maxParamNum
    case neg =>
      rw [if_neg hlt, Nat.sub_eq_zero_of_le (by omega), List.take_zero, List.append_nil]
      have hyields := hheld.yields hle (rest ++ [NUL])
      rw [← List.append_assoc] at hyields
      exact ⟨_, rfl, hyields⟩
    case pos =>
      obtain ⟨n, hn⟩ : ∃ n, maxParamNum - places.length = n + 1 := ⟨maxParamNum - places.length - 1, by omega⟩
      obtain ⟨b, w, r, hparts, hremove⟩ := removeLeadingWhitespace_parts passed rest
      have hw : ∀ c ∈ w, c ≠ NUL := fun c hc => hrest c (by rw [hparts.eq]; simp [hc])
      rw [if_pos hlt, hremove]
      by_cases hne : w = []
      · subst hne
        rw [List.nil_append, copyToken_stop hparts.behind]
        cases r with
        | nil =>
          rw [fields_cut_none hparts (by simp), List.take_nil, List.append_nil]
          exact ⟨_, rfl, (hheld.append b).yields hle [NUL]⟩
        | cons c cs =>
          dsimp only
          by_cases hend : endsLine c = true
          · rw [if_pos hend, fields_cut_none hparts (by simpa using hend), List.take_nil, List.append_nil]
            have hyields := (hheld.append b).yields hle (c :: cs ++ [NUL])
            rw [← List.append_assoc] at hyields
            exact ⟨_, rfl, hyields⟩
          · rw [if_neg hend, fields_cut_skip hparts (by simpa using hend)]
            apply ih
            · have hlen := congrArg List.length hparts.eq
              simp only [List.length_append, List.length_cons] at hlen
              omega
            · exact hle
            · exact (hheld.append b).append [c]
            · exact fun d hd => hrest d (by rw [hparts.eq]; simp [hd])
      · rw [copyToken_token (getElem?_arrayOf hlt) hne hparts.token hparts.behind, set_arrayOf hlt]
        have hheld' := (hheld.append b).token hw
        have hle' : (places ++ [(passed ++ b).length]).length ≤ maxParamNum := by
          rw [List.length_append, List.length_singleton]
          omega
        have hcount : (places ++ [(passed ++ b).length]).length = places.length + 1 := by simp
        have hlast : tokens ++ [w].take (maxParamNum - places.length) = tokens ++ [w] := by
          rw [hn, List.take_succ_cons, List.take_nil]
        cases r with
        | nil =>
          rw [fields_cut_last hparts hne (by simp), hlast]
          have hyields := hheld'.yields hle' []
          rw [List.append_nil, hcount] at hyields
          exact ⟨_, rfl, hyields⟩
        | cons c cs =>
          dsimp only
          by_cases hend : endsLine c = true
          · rw [if_pos hend, fields_cut_last hparts hne (by simpa using hend), hlast]
            have hyields := hheld'.yields hle' (cs ++ [NUL])
            rw [hcount] at hyields
            exact ⟨_, rfl, by simpa using hyields⟩
          · have hlen : cs.length < fuel := by
              have hall := congrArg List.length hparts.eq
              simp only [List.length_append, List.length_cons] at hall
              omega
            have hroom : maxParamNum - (places.length + 1) = n := by omega
            have hstep := @ih (places ++ [(passed ++ b).length]) (tokens ++ [w]) (passed ++ b ++ w ++ [NUL]) cs
              hlen hle' hheld' fun d hd => hrest d (by rw [hparts.eq]; simp [hd])
            rw [hcount, hroom, List.append_assoc tokens, List.singleton_append] at hstep
            rw [if_neg hend, fields_cut_token hparts hne (by simpa using hend), hn, List.take_succ_cons]
            exact hstep

/-- What `split_buffer` yields of a line. -/
theorem splitBuffer_yields (line : Line) (maxParamNum : Nat) : ∃ out, splitBuffer line maxParamNum = some out ∧
    out.Yields maxParamNum ((fields isBlank (cut false line.text)).take maxParamNum) := by
  have hheld : Held [] [] [] := fun _ => rfl
  have h := splitLoop_yields (Nat.lt_succ_self line.text.length) (Nat.zero_le maxParamNum) hheld line.noNul
  simpa [splitBuffer, arrayOf] using h

/-! ## Carriage returns behind blanks -/

/-- The tokens of a line: the runs of its text up to the first carriage return or newline. -/
def tokensOf (line : Line) : List (List Char) :=
  fields isBlank (line.text.takeWhile fun c => !endsLine c)

/-- The array is never written behind its end, and then has the tokens of the line. -/
def SplitRight (line : Line) (maxParamNum : Nat) : Prop :=
  ∃ out, splitBuffer line maxParamNum = some out ∧ out.Yields maxParamNum ((tokensOf line).take maxParamNum)

/-- The first of the characters that end a line is a carriage return that is not behind a token, the
limit is not reached there, and a token follows in the line. -/
def SplitSlips (line : Line) (maxParamNum : Nat) : Prop :=
  ∃ before behind, line.text = before ++ CR :: behind ∧ (∀ c ∈ before, endsLine c = false) ∧
    (∀ c, before.getLast? = some c → isTokenChar c = false) ∧
    (fields isBlank before).length < maxParamNum ∧ ∃ c ∈ behind.takeWhile (· ≠ LF), isTokenChar c = true

theorem yields_unique {out : Split} {maxParamNum : Nat} {t u : List (List Char)}
    (ht : out.Yields maxParamNum t) (hu : out.Yields maxParamNum u) : t = u := by
  obtain ⟨⟨places, harray, -, rfl⟩, hcount⟩ := ht
  obtain ⟨⟨places', harray', -, rfl⟩, hcount'⟩ := hu
  rw [List.length_map] at hcount hcount'
  have hlen : places.length = places'.length := hcount.symm.trans hcount'
  have hmap := harray.symm.trans harray'
  rw [hlen] at hmap
  have hplaces := (List.append_inj hmap (by simpa using hlen)).1
  rw [(List.map_inj_right fun _ _ => Option.some.inj).mp hplaces]

theorem splitRight_iff_take (line : Line) (maxParamNum : Nat) : SplitRight line maxParamNum ↔
    (fields isBlank (cut false line.text)).take maxParamNum = (tokensOf line).take maxParamNum := by
  obtain ⟨out, hout, hyields⟩ := splitBuffer_yields line maxParamNum
  constructor
  · rintro ⟨out', hout', hyields'⟩
    rw [hout] at hout'
    obtain rfl := Option.some.inj hout'
    exact yields_unique hyields hyields'
  · intro h
    exact ⟨out, hout, h ▸ hyields⟩

section Slips
variable {text before behind : List Char}

/-- Up to the first character that may end a line nothing is cut, but for a carriage return behind a
token. -/
theorem cut_before {b : Bool} {before : List Char} (hbefore : ∀ c ∈ before, endsLine c = false)
    (tail : List Char) : cut b (before ++ tail) =
      before ++ cut (before.getLast?.elim b isTokenChar) tail := by
  induction before generalizing b with
  | nil => rfl
  | cons c before ih =>
    obtain ⟨hc, hbefore⟩ := List.forall_mem_cons.mp hbefore
    have hnot : ¬ (c = LF ∨ c = CR ∧ b = true) := by
      intro h
      have hends : endsLine c = true := (endsLine_iff).mpr (by tauto)
      rw [hc] at hends
      cases hends
    rw [List.cons_append, cut, if_neg hnot, ih hbefore, List.cons_append, List.getLast?_cons]
    cases before.getLast? <;> rfl

/-- All of a line, or what is before the first character that ends it. -/
theorem exists_before (text : List Char) : ∃ before tail, text = before ++ tail ∧
    (∀ c ∈ before, endsLine c = false) ∧ (text.takeWhile fun c => !endsLine c) = before ∧
    (∀ c, tail.head? = some c → endsLine c = true) := by
  refine ⟨_, text.dropWhile fun c => !endsLine c, (List.takeWhile_append_dropWhile).symm, ?_, rfl, ?_⟩
  · intro c hc
    simpa using List.mem_takeWhile_imp hc
  · intro c hc
    simpa using head?_dropWhile_not _ _ hc

/-- In a rest of a line there are tokens if there are characters of one before the newline. -/
theorem fields_cut_eq_nil_iff : fields isBlank (cut false text) = [] ↔
    ¬ ∃ c ∈ text.takeWhile (· ≠ LF), isTokenChar c = true := by
  rw [fields_eq_nil_iff]
  induction text with
  | nil => simp [cut]
  | cons c cs ih =>
    by_cases hlf : c = LF
    · subst hlf
      simp [cut]
    · rw [cut, if_neg (by simp [hlf])]
      cases hc : isTokenChar c with
      | true => simp [hlf, isBlank, hc]
      | false => simpa [hlf, isBlank, hc] using ih

/-- The first character that ends a line is where it is. -/
theorem before_unique {tail before' tail' : List Char} (h : before ++ tail = before' ++ tail')
    (hbefore : ∀ c ∈ before, endsLine c = false) (hbefore' : ∀ c ∈ before', endsLine c = false)
    (htail : ∀ c, tail.head? = some c → endsLine c = true)
    (htail' : ∀ c, tail'.head? = some c → endsLine c = true) : before = before' ∧ tail = tail' := by
  have htake : ∀ before tail : List Char, (∀ c ∈ before, endsLine c = false) →
      (∀ c, tail.head? = some c → endsLine c = true) →
      ((before ++ tail).takeWhile fun c => !endsLine c) = before := by
    intro before tail hbefore htail
    rw [List.takeWhile_append_of_pos (by simpa using hbefore)]
    cases tail with
    | nil => simp
    | cons c tail => simp [htail c rfl]
  have heq : before = before' := by
    rw [← htake before tail hbefore htail, h, htake before' tail' hbefore' htail']
  exact ⟨heq, List.append_cancel_left (heq ▸ h)⟩

theorem take_append_eq_take_iff {α : Type} {n : Nat} {s t : List α} :
    (s ++ t).take n = s.take n ↔ ¬ (s.length < n ∧ t ≠ []) := by
  rw [List.take_append]
  constructor
  · rintro h ⟨hlt, hne⟩
    have hnil : t.take (n - s.length) = [] := by simpa using h
    rcases List.take_eq_nil_iff.mp hnil with hzero | hnil
    · omega
    · exact hne hnil
  · intro h
    by_cases hlt : s.length < n
    · have hnil : t = [] := by
        by_contra hne
        exact h ⟨hlt, hne⟩
      simp [hnil]
    · rw [Nat.sub_eq_zero_of_le (by omega), List.take_zero, List.append_nil]

end Slips

/-- The tokens are those of the line unless a carriage return behind a blank is skipped with tokens
after it. -/
theorem splitRight_iff (line : Line) (maxParamNum : Nat) :
    SplitRight line maxParamNum ↔ ¬ SplitSlips line maxParamNum := by
  obtain ⟨before, tail, htext, hbefore, hline, htail⟩ := exists_before line.text
  have hslips : SplitSlips line maxParamNum ↔ ∃ behind, tail = CR :: behind ∧
      (∀ c, before.getLast? = some c → isTokenChar c = false) ∧
      (fields isBlank before).length < maxParamNum ∧ ∃ c ∈ behind.takeWhile (· ≠ LF), isTokenChar c = true := by
    constructor
    · rintro ⟨before', behind, htext', hbefore', hlast, hlen, htoken⟩
      obtain ⟨rfl, rfl⟩ := before_unique (htext.symm.trans htext') hbefore hbefore' htail (by simp [endsLine])
      exact ⟨behind, rfl, hlast, hlen, htoken⟩
    · rintro ⟨behind, rfl, hlast, hlen, htoken⟩
      exact ⟨before, behind, htext, hbefore, hlast, hlen, htoken⟩
  have hequal (hcut : cut (before.getLast?.elim false isTokenChar) tail = []) : SplitRight line maxParamNum := by
    apply (splitRight_iff_take line maxParamNum).mpr
    rw [tokensOf, hline, htext, cut_before hbefore, hcut, List.append_nil]
  rw [hslips]
  cases tail with
  | nil => exact ⟨fun _ => by simp, fun _ => hequal rfl⟩
  | cons c behind =>
    rcases (endsLine_iff).mp (htail c rfl) with rfl | rfl
    case inr => exact ⟨fun _ => by simp [CR, LF], fun _ => hequal (by simp [cut])⟩
    case inl =>
      cases hlast : before.getLast?.elim false isTokenChar with
      | true =>
        -- the carriage return is behind a token
        refine ⟨fun _ => ?_, fun _ => hequal (by rw [hlast]; exact cut_endsLine rfl)⟩
        rintro ⟨-, -, hnone, -⟩
        cases hget : before.getLast? with
        | none => simp [hget] at hlast
        | some c =>
          rw [hget, Option.elim_some, hnone c hget] at hlast
          cases hlast
      | false =>
        have hblank : ∀ c, before.getLast? = some c → isTokenChar c = false := by
          intro c hget
          rwa [hget, Option.elim_some] at hlast
        have hcut : cut false (CR :: behind) = CR :: cut false behind := rfl
        rw [splitRight_iff_take, tokensOf, hline, htext, cut_before hbefore, hlast, hcut,
          fields_append_blank (by decide), take_append_eq_take_iff, Ne, fields_cut_eq_nil_iff, not_not]
        apply not_congr
        constructor
        · rintro ⟨hlen, htoken⟩
          exact ⟨behind, rfl, hblank, hlen, htoken⟩
        · rintro ⟨_, heq, -, hlen, htoken⟩
          cases heq
          exact ⟨hlen, htoken⟩

end UserChoice
