import RoLauncher.Text.Utf16

/-!
# Trimmed texts

Trimming again changes nothing, and trimming comes to the same in front of a map
that keeps blanks apart.
-/

namespace RoLauncher.Text

variable {κ : Type} {blank blank' : κ → Bool}

theorem dropWhile_congr {text : List κ} (same : ∀ c ∈ text, blank c = blank' c) :
    text.dropWhile blank = text.dropWhile blank' := by
  induction text with
  | nil => rfl
  | cons c text ih =>
    rw [List.dropWhile_cons, List.dropWhile_cons, same c List.mem_cons_self,
      ih fun d mem => same d (List.mem_cons_of_mem c mem)]

theorem trimBy_idem (text : List κ) : trimBy blank (trimBy blank text) = trimBy blank text := by
  have head : ∀ c, (trimBy blank text).head? = some c → blank c = false := by
    intro c first
    have front : trimBy blank text <+: text.dropWhile blank := by
      rw [trimBy, ← List.reverse_suffix, List.reverse_reverse]
      exact List.dropWhile_suffix _
    have found : (text.dropWhile blank).head? = some c := by
      obtain ⟨rest, split⟩ := front
      rw [← split, List.head?_append, first]
      rfl
    have := List.head?_dropWhile_not blank text
    rw [found] at this
    simpa using this
  have front : (trimBy blank text).dropWhile blank = trimBy blank text := by
    cases here : trimBy blank text with
    | nil => rfl
    | cons c rest => rw [List.dropWhile_cons_of_neg (by rw [head c (by rw [here]; rfl)]; exact Bool.false_ne_true)]
  rw [trimBy, front, trimBy, List.reverse_reverse, List.dropWhile_idempotent]

theorem trimBy_map {f : κ → κ} (same : ∀ c, blank (f c) = blank c) (text : List κ) :
    trimBy blank (text.map f) = (trimBy blank text).map f := by
  have comp : blank ∘ f = blank := funext same
  rw [trimBy, trimBy, List.dropWhile_map, ← List.map_reverse, List.dropWhile_map, ← List.map_reverse, comp]

theorem trimBy_congr {text : List κ} (same : ∀ c ∈ text, blank c = blank' c) :
    trimBy blank text = trimBy blank' text := by
  have back : ∀ c ∈ (text.dropWhile blank').reverse, blank c = blank' c := fun c mem =>
    same c ((List.dropWhile_sublist _).subset (List.mem_reverse.mp mem))
  rw [trimBy, trimBy, dropWhile_congr same, dropWhile_congr back]

end RoLauncher.Text
