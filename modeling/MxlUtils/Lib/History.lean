import Mathlib.Data.Option.Basic

/- Last write wins. Operations on a state, some of which set a value; what is shown
   of the state is the value set last, if each of these operations leaves it shown
   and every other one keeps it. -/
namespace History

variable {σ ι β : Type} {sets : ι → Option β} {after : σ → ι → σ} {Shows : β → σ → Prop}

/-- The value set last, `b₀` if there is none. -/
def lastSet (sets : ι → Option β) (b₀ : Option β) (ops : List ι) : Option β :=
  ops.foldl (fun b op => (sets op).or b) b₀

@[simp] theorem lastSet_nil (b₀ : Option β) : lastSet sets b₀ [] = b₀ := rfl

@[simp] theorem lastSet_cons (b₀ : Option β) (op : ι) (ops : List ι) :
    lastSet sets b₀ (op :: ops) = lastSet sets ((sets op).or b₀) ops := rfl

/-- The operations that set the value leave it shown, and the others keep what is shown. -/
structure Faithful (sets : ι → Option β) (after : σ → ι → σ) (Shows : β → σ → Prop) : Prop where
  set : ∀ {op s b}, sets op = some b → Shows b (after s op)
  keep : ∀ {op s b}, sets op = none → Shows b s → Shows b (after s op)

theorem Faithful.lastSet (h : Faithful sets after Shows) {b₀ : Option β} {ops : List ι} {s : σ} {b : β}
    (hstart : ∀ b, b₀ = some b → Shows b s) (hlast : lastSet sets b₀ ops = some b) :
    Shows b (ops.foldl after s) := by
  induction ops generalizing b₀ s with
  | nil => exact hstart b hlast
  | cons op ops ih =>
    refine ih (fun b hb => ?_) hlast
    have hb : (sets op).or b₀ = some b := hb
    cases hset : sets op with
    | some v =>
      rw [hset] at hb
      exact h.set (hset.trans hb)
    | none =>
      rw [hset] at hb
      exact h.keep hset (hstart b hb)

/-- Once something is set, something is shown. -/
theorem exists_lastSet (b₀ : β) (ops : List ι) : ∃ b, History.lastSet sets (some b₀) ops = some b := by
  induction ops generalizing b₀ with
  | nil => exact ⟨b₀, rfl⟩
  | cons op ops ih =>
    cases hset : sets op with
    | some v =>
      obtain ⟨b, hb⟩ := ih v
      exact ⟨b, by rw [lastSet_cons, hset]; exact hb⟩
    | none =>
      obtain ⟨b, hb⟩ := ih b₀
      exact ⟨b, by rw [lastSet_cons, hset]; exact hb⟩

/-- What is set before the operations stands until one of them sets something. -/
theorem lastSet_or (b₀ : Option β) (ops : List ι) : lastSet sets b₀ ops = (lastSet sets none ops).or b₀ := by
  induction ops generalizing b₀ with
  | nil => rfl
  | cons op ops ih =>
    calc lastSet sets b₀ (op :: ops)
        = (lastSet sets none ops).or ((sets op).or b₀) := ih _
      _ = ((lastSet sets none ops).or (sets op)).or b₀ := Option.or_assoc.symm
      _ = (lastSet sets none (op :: ops)).or b₀ := by rw [lastSet_cons, ih ((sets op).or none), Option.or_none]

/-- Where every operation shows what it sets, or else what was shown before, a run of them shows what was set last,
or else what was shown before it. -/
theorem shown_foldl {γ : Type} {shown : σ → γ} {stored : β → γ}
    (h : ∀ s op, shown (after s op) = ((sets op).map stored).getD (shown s)) (ops : List ι) (s : σ) :
    shown (ops.foldl after s) = ((lastSet sets none ops).map stored).getD (shown s) := by
  induction ops generalizing s with
  | nil => rfl
  | cons op ops ih =>
    rw [List.foldl_cons, ih, h, lastSet_cons, Option.or_none, lastSet_or (sets op)]
    cases lastSet sets none ops <;> rfl

end History
