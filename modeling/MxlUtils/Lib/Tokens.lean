import Mathlib.Data.List.Basic

/- The fields of a text: its longest runs of characters that are no blanks, in their order. -/
namespace Tokens

variable {α : Type} (blank : α → Bool)

def fields (text : List α) : List (List α) := (text.splitOnP blank).filter (!·.isEmpty)

variable {blank}

@[simp] theorem fields_nil : fields blank [] = [] := by simp [fields, List.splitOnP_nil]

/-- Everything else follows from this: fields do not reach over a blank. -/
theorem fields_append_blank {b : α} (hb : blank b = true) (s t : List α) :
    fields blank (s ++ b :: t) = fields blank s ++ fields blank t := by
  rw [fields, List.splitOnP_append_cons s t hb, List.filter_append]
  rfl

theorem fields_blank_cons {b : α} (hb : blank b = true) (t : List α) : fields blank (b :: t) = fields blank t := by
  simpa using fields_append_blank hb [] t

theorem fields_blanks_append {s : List α} (hs : ∀ b ∈ s, blank b = true) (t : List α) :
    fields blank (s ++ t) = fields blank t := by
  induction s with
  | nil => rfl
  | cons b s ih =>
    obtain ⟨hb, hs⟩ := List.forall_mem_cons.mp hs
    rw [List.cons_append, fields_blank_cons hb, ih hs]

theorem fields_of_run {w : List α} (hne : w ≠ []) (hw : ∀ c ∈ w, blank c = false) : fields blank w = [w] := by
  rw [fields, List.splitOnP_eq_singleton hw]
  simp [hne]

theorem fields_run_append {w : List α} (hne : w ≠ []) (hw : ∀ c ∈ w, blank c = false) {b : α}
    (hb : blank b = true) (t : List α) : fields blank (w ++ b :: t) = w :: fields blank t := by
  rw [fields_append_blank hb, fields_of_run hne hw]
  rfl

/-- The fields are what is left of a text without its blanks. -/
theorem flatten_fields (text : List α) : (fields blank text).flatten = text.filter fun c => !blank c := by
  rw [fields, List.flatten_filter_not_isEmpty]
  induction text with
  | nil => simp [List.splitOnP_nil]
  | cons c text ih =>
    rw [List.splitOnP_cons_eq_if_modifyHead]
    by_cases hc : blank c = true
    · simp [hc, ih]
    · obtain ⟨w, ws, hsplit⟩ := List.exists_cons_of_ne_nil (List.splitOnP_ne_nil blank text)
      rw [hsplit] at ih ⊢
      simpa [hc] using ih

/-- Only blanks have no fields. -/
theorem fields_eq_nil_iff {text : List α} : fields blank text = [] ↔ ∀ c ∈ text, blank c = true := by
  constructor
  · intro hnil c hc
    by_contra hrun
    have hmem : c ∈ (fields blank text).flatten := by
      rw [flatten_fields]
      exact List.mem_filter.mpr ⟨hc, by simpa using hrun⟩
    simp [hnil] at hmem
  · intro h
    simpa using fields_blanks_append h []

end Tokens
