import Mathlib.Data.List.Infix

/-!
# Templates with fields

A template is a text with fields between an opening of two letters and a
closing letter: `${name}`. `Template` says which texts are templates and what
their fields are, whatever the letters. Looking for the first opening, and for
the first closing letter after it, reads a template in the only way there is
(`template_found`).
-/

namespace RoLauncher.Text

variable {κ : Type}

section Find

variable [DecidableEq κ]

/-- Where the pattern first occurs. -/
def find (pattern : List κ) : List κ → Option Nat
  | [] => if pattern = [] then some 0 else none
  | a :: rest =>
    if pattern.isPrefixOf (a :: rest) then some 0 else (find pattern rest).map (· + 1)

variable {pattern text : List κ} {i : Nat}

/-- What is before the first occurrence, and what is after it. -/
theorem find_some (found : find pattern text = some i) :
    ∃ before after, text = before ++ pattern ++ after ∧ before.length = i ∧
      ∀ s, s ≠ [] → s <:+ before → ¬ pattern <+: s ++ pattern ++ after := by
  induction text generalizing i with
  | nil =>
    rw [find] at found
    split at found
    next none =>
      cases found
      rw [none]
      exact ⟨[], [], rfl, rfl, fun s some suffix => absurd (List.suffix_nil.mp suffix) some⟩
    next => cases found
  | cons a text ih =>
    rw [find] at found
    split at found
    next starts =>
      cases found
      obtain ⟨after, split⟩ := List.isPrefixOf_iff_prefix.mp starts
      exact ⟨[], after, split.symm, rfl, fun s some suffix => absurd (List.suffix_nil.mp suffix) some⟩
    next misses =>
      obtain ⟨j, later, rfl⟩ := Option.map_eq_some_iff.mp found
      obtain ⟨before, after, rfl, rfl, first⟩ := ih later
      refine ⟨a :: before, after, rfl, rfl, fun s some suffix => ?_⟩
      obtain rfl | suffix := List.suffix_cons_iff.mp suffix
      · exact fun starts => misses (List.isPrefixOf_iff_prefix.mpr starts)
      · exact first s some suffix

theorem find_none (missing : find pattern text = none) : ¬ pattern <:+: text := by
  induction text with
  | nil =>
    rw [find] at missing
    split at missing
    next => cases missing
    next some => exact fun infix' => some (List.infix_nil.mp infix')
  | cons a text ih =>
    rw [find] at missing
    split at missing
    next => cases missing
    next misses =>
      rw [List.infix_cons_iff]
      rintro (starts | inside)
      · exact misses (List.isPrefixOf_iff_prefix.mpr starts)
      · exact ih (Option.map_eq_none_iff.mp missing) inside

end Find

/-- A template, and the names of its fields. -/
inductive Template (opening : κ × κ) (closing : κ) (Name : List κ → Prop) :
    List κ → List (List κ) → Prop
  | plain {text : List κ} : ¬ [opening.1, opening.2] <:+: text →
      Template opening closing Name text []
  | field {before name after : List κ} {names : List (List κ)} :
      ¬ [opening.1, opening.2] <:+: before → closing ∉ name → Name name →
      Template opening closing Name after names →
      Template opening closing Name
        (before ++ opening.1 :: opening.2 :: (name ++ closing :: after)) (name :: names)

section Reading

variable {opening : κ × κ} {closing : κ} {Name : List κ → Prop} {text before name after : List κ}
  {names : List (List κ)}

/-- The first opening of a text is where it is. -/
theorem opening_unique (ne : opening.1 ≠ opening.2) {before' after' : List κ}
    (none : ¬ [opening.1, opening.2] <:+: before) (none' : ¬ [opening.1, opening.2] <:+: before')
    (same : before ++ opening.1 :: opening.2 :: after = before' ++ opening.1 :: opening.2 :: after') :
    before = before' ∧ after = after' := by
  induction before generalizing before' with
  | nil =>
    cases before' with
    | nil => exact ⟨rfl, (List.cons.inj (List.cons.inj same).2).2⟩
    | cons a before' =>
      exfalso
      obtain ⟨rfl, tail⟩ := List.cons.inj same
      cases before' with
      | nil => exact ne (List.cons.inj tail).1.symm
      | cons b before' =>
        obtain ⟨rfl, _⟩ := List.cons.inj tail
        exact none' (List.prefix_append [opening.1, opening.2] before').isInfix
  | cons a before ih =>
    cases before' with
    | nil =>
      exfalso
      obtain ⟨rfl, tail⟩ := List.cons.inj same
      cases before with
      | nil => exact ne (List.cons.inj tail).1
      | cons b before =>
        obtain ⟨rfl, _⟩ := List.cons.inj tail
        exact none (List.prefix_append [opening.1, opening.2] before).isInfix
    | cons b before' =>
      obtain ⟨rfl, tail⟩ := List.cons.inj same
      obtain ⟨rfl, rest⟩ := ih (fun inside => none (List.infix_cons inside))
        (fun inside => none' (List.infix_cons inside)) tail
      exact ⟨rfl, rest⟩

theorem closing_unique {name' after' : List κ} (none : closing ∉ name) (none' : closing ∉ name')
    (same : name ++ closing :: after = name' ++ closing :: after') : name = name' ∧ after = after' := by
  induction name generalizing name' with
  | nil =>
    cases name' with
    | nil => exact ⟨rfl, (List.cons.inj same).2⟩
    | cons a name' => exact absurd ((List.cons.inj same).1 ▸ List.mem_cons_self) none'
  | cons a name ih =>
    cases name' with
    | nil => exact absurd ((List.cons.inj same).1 ▸ List.mem_cons_self) none
    | cons b name' =>
      obtain ⟨rfl, tail⟩ := List.cons.inj same
      obtain ⟨rfl, rest⟩ := ih (fun mem => none (List.mem_cons_of_mem _ mem))
        (fun mem => none' (List.mem_cons_of_mem _ mem)) tail
      exact ⟨rfl, rest⟩

theorem Template.named (h : Template opening closing Name text names) : ∀ name ∈ names, Name name := by
  induction h with
  | plain => exact fun name never => (List.not_mem_nil never).elim
  | field _ _ named _ ih =>
    intro name mem
    obtain rfl | mem := List.mem_cons.mp mem
    · exact named
    · exact ih name mem

/-- Without an opening there is no field. -/
theorem template_plain (none : ¬ [opening.1, opening.2] <:+: text) :
    Template opening closing Name text names ↔ names = [] := by
  constructor
  · rintro (_ | _)
    · rfl
    · refine absurd ?_ none
      exact ⟨_, _, by rw [List.append_assoc]; rfl⟩
  · rintro rfl
    exact .plain none

/-- **With an opening there is one**, up to the first closing letter. -/
theorem template_found (ne : opening.1 ≠ opening.2) (none : ¬ [opening.1, opening.2] <:+: before)
    (open' : closing ∉ name) :
    Template opening closing Name (before ++ opening.1 :: opening.2 :: (name ++ closing :: after)) names ↔
      ∃ rest, names = name :: rest ∧ Name name ∧ Template opening closing Name after rest := by
  constructor
  · intro h
    generalize split : before ++ opening.1 :: opening.2 :: (name ++ closing :: after) = text at h
    cases h with
    | plain clear =>
      refine absurd ⟨before, name ++ closing :: after, ?_⟩ clear
      rw [← split, List.append_assoc]
      rfl
    | field none' open'' named rest =>
      obtain ⟨_, same⟩ := opening_unique ne none none' split
      obtain ⟨rfl, rfl⟩ := closing_unique open' open'' same
      exact ⟨_, rfl, named, rest⟩
  · rintro ⟨rest, rfl, named, fields⟩
    exact .field none open' named fields

/-- An opening that is never closed. -/
theorem template_open (ne : opening.1 ≠ opening.2) (none : ¬ [opening.1, opening.2] <:+: before)
    (open' : closing ∉ after) :
    ¬ Template opening closing Name (before ++ opening.1 :: opening.2 :: after) names := by
  intro h
  generalize split : before ++ opening.1 :: opening.2 :: after = text at h
  cases h with
  | plain clear =>
    refine absurd ⟨before, after, ?_⟩ clear
    rw [← split, List.append_assoc]
    rfl
  | field none' _ _ _ =>
    obtain ⟨_, rfl⟩ := opening_unique ne none none' split
    exact open' (List.mem_append_right _ List.mem_cons_self)

/-- The text from the first opening on. -/
theorem find_opening [DecidableEq κ] {i : Nat} (found : find [opening.1, opening.2] text = some i) :
    ∃ before, text = before ++ opening.1 :: opening.2 :: text.drop (i + 2) ∧ before.length = i ∧
      ¬ [opening.1, opening.2] <:+: before := by
  obtain ⟨before, after, rfl, rfl, first⟩ := find_some found
  refine ⟨before, ?_, rfl, ?_⟩
  · have width : before.length + 2 = (before ++ [opening.1, opening.2]).length := by
      rw [List.length_append]
      rfl
    rw [width, List.drop_left, List.append_assoc]
    rfl
  · rintro ⟨front, back, rfl⟩
    refine first ([opening.1, opening.2] ++ back) (List.cons_ne_nil _ _) ?_ ?_
    · rw [List.append_assoc]
      exact List.suffix_append _ _
    · rw [List.append_assoc, List.append_assoc]
      exact List.prefix_append _ _

theorem find_closing [DecidableEq κ] {i : Nat} (found : find [closing] text = some i) :
    text = text.take i ++ closing :: text.drop (i + 1) ∧ closing ∉ text.take i := by
  obtain ⟨before, after, rfl, rfl, first⟩ := find_some found
  refine ⟨by simp, ?_⟩
  rw [List.append_assoc, List.take_left]
  intro mem
  obtain ⟨front, back, rfl⟩ := List.append_of_mem mem
  refine first (closing :: back) (List.cons_ne_nil _ _) (List.suffix_append _ _) ?_
  exact List.prefix_append [closing] _

theorem not_mem_of_find [DecidableEq κ] (missing : find [closing] text = none) : closing ∉ text := by
  intro mem
  obtain ⟨front, back, rfl⟩ := List.append_of_mem mem
  exact find_none missing ⟨front, back, by rw [List.append_assoc]; rfl⟩

section Scan

variable [DecidableEq κ] {i j : Nat}

theorem template_of_find_none (missing : find [opening.1, opening.2] text = none) :
    Template opening closing Name text names ↔ names = [] := template_plain (find_none missing)

theorem not_template_of_find (ne : opening.1 ≠ opening.2)
    (opened : find [opening.1, opening.2] text = some i)
    (missing : find [closing] (text.drop (i + 2)) = none) :
    ¬ Template opening closing Name text names := by
  obtain ⟨before, split, _, clear⟩ := find_opening opened
  rw [split]
  exact template_open ne clear (not_mem_of_find missing)

/-- **One round of a scan.** -/
theorem template_of_find (ne : opening.1 ≠ opening.2)
    (opened : find [opening.1, opening.2] text = some i)
    (closed : find [closing] (text.drop (i + 2)) = some j) :
    Template opening closing Name text names ↔
      ∃ rest, names = (text.drop (i + 2)).take j :: rest ∧ Name ((text.drop (i + 2)).take j) ∧
        Template opening closing Name ((text.drop (i + 2)).drop (j + 1)) rest := by
  obtain ⟨before, split, _, clear⟩ := find_opening opened
  obtain ⟨split', open'⟩ := find_closing closed
  rw [← template_found ne clear open', ← split', ← split]

theorem scan_shorter (opened : find [opening.1, opening.2] text = some i) :
    ((text.drop (i + 2)).drop (j + 1)).length < text.length := by
  obtain ⟨before, split, _, _⟩ := find_opening opened
  have lengths := congrArg List.length split
  rw [List.length_append, List.length_cons, List.length_cons] at lengths
  rw [List.length_drop]
  omega

end Scan

end Reading

/-! ## Filling the fields in -/

/-- A template with the text of each field in its place. What is filled in is not read again. -/
inductive Filled (opening : κ × κ) (closing : κ) (value : List κ → Option (List κ)) :
    List κ → List κ → Prop
  | plain {text : List κ} : ¬ [opening.1, opening.2] <:+: text →
      Filled opening closing value text text
  | field {before name after text out : List κ} :
      ¬ [opening.1, opening.2] <:+: before → closing ∉ name → value name = some text →
      Filled opening closing value after out →
      Filled opening closing value
        (before ++ opening.1 :: opening.2 :: (name ++ closing :: after)) (before ++ (text ++ out))

section Filling

variable {opening : κ × κ} {closing : κ} {value : List κ → Option (List κ)} {Name : List κ → Prop}
  {text out : List κ}

theorem filled_plain (none : ¬ [opening.1, opening.2] <:+: text) :
    Filled opening closing value text out ↔ out = text := by
  constructor
  · rintro (_ | _)
    · rfl
    · refine absurd ?_ none
      exact ⟨_, _, by rw [List.append_assoc]; rfl⟩
  · rintro rfl
    exact .plain none

/-- The first field is filled in, and the rest of the template. -/
theorem filled_found {before name after : List κ} (ne : opening.1 ≠ opening.2)
    (none : ¬ [opening.1, opening.2] <:+: before) (open' : closing ∉ name) :
    Filled opening closing value (before ++ opening.1 :: opening.2 :: (name ++ closing :: after)) out ↔
      ∃ text rest, value name = some text ∧ Filled opening closing value after rest ∧
        out = before ++ (text ++ rest) := by
  constructor
  · intro h
    generalize split : before ++ opening.1 :: opening.2 :: (name ++ closing :: after) = whole at h
    cases h with
    | plain clear =>
      refine absurd ⟨before, name ++ closing :: after, ?_⟩ clear
      rw [← split, List.append_assoc]
      rfl
    | field none' open'' named rest =>
      obtain ⟨rfl, same⟩ := opening_unique ne none none' split
      obtain ⟨rfl, rfl⟩ := closing_unique open' open'' same
      exact ⟨_, _, named, rest, rfl⟩
  · rintro ⟨text, rest, named, fields, rfl⟩
    exact .field none open' named fields

theorem not_filled_open {before after : List κ} (ne : opening.1 ≠ opening.2)
    (none : ¬ [opening.1, opening.2] <:+: before) (open' : closing ∉ after) :
    ¬ Filled opening closing value (before ++ opening.1 :: opening.2 :: after) out := by
  intro h
  generalize split : before ++ opening.1 :: opening.2 :: after = text at h
  cases h with
  | plain clear =>
    refine absurd ⟨before, after, ?_⟩ clear
    rw [← split, List.append_assoc]
    rfl
  | field none' _ _ _ =>
    obtain ⟨_, rfl⟩ := opening_unique ne none none' split
    exact open' (List.mem_append_right _ List.mem_cons_self)

/-- **There is one way to fill a template in.** -/
theorem Filled.unique {out' : List κ} (ne : opening.1 ≠ opening.2)
    (first : Filled opening closing value text out) (second : Filled opening closing value text out') :
    out = out' := by
  induction first generalizing out' with
  | plain none => exact ((filled_plain none).mp second).symm
  | field none open' named _ ih =>
    obtain ⟨text, rest, named', fields, rfl⟩ := (filled_found ne none open').mp second
    rw [named] at named'
    cases named'
    rw [ih fields]

/-- A template whose fields all have a text can be filled in. -/
theorem Template.filled {names : List (List κ)} (h : Template opening closing Name text names)
    (texts : ∀ name ∈ names, ∃ text, value name = some text) :
    ∃ out, Filled opening closing value text out := by
  induction h with
  | plain none => exact ⟨_, .plain none⟩
  | field none open' _ _ ih =>
    obtain ⟨text, named⟩ := texts _ List.mem_cons_self
    obtain ⟨out, rest⟩ := ih fun name mem => texts name (List.mem_cons_of_mem _ mem)
    exact ⟨_, .field none open' named rest⟩

/-- Only the texts of the fields matter. -/
theorem Template.filled_congr {value' : List κ → Option (List κ)} {names : List (List κ)}
    (ne : opening.1 ≠ opening.2) (h : Template opening closing Name text names)
    (same : ∀ name, Name name → value name = value' name) :
    Filled opening closing value text out ↔ Filled opening closing value' text out := by
  have transfer {value value' : List κ → Option (List κ)}
      (same : ∀ name, Name name → value name = value' name)
      (filled : Filled opening closing value text out) : Filled opening closing value' text out := by
    induction h generalizing out with
    | plain none =>
      rw [(filled_plain none).mp filled]
      exact .plain none
    | field none open' valid template ih =>
      obtain ⟨field, rest, named, later, rfl⟩ := (filled_found ne none open').mp filled
      rw [same _ valid] at named
      exact .field none open' named (ih later)
  exact ⟨transfer same, transfer fun name named => (same name named).symm⟩

section Scan

variable [DecidableEq κ] {i j : Nat}

theorem filled_of_find_none (missing : find [opening.1, opening.2] text = none) :
    Filled opening closing value text out ↔ out = text := filled_plain (find_none missing)

theorem not_filled_of_find (ne : opening.1 ≠ opening.2)
    (opened : find [opening.1, opening.2] text = some i)
    (missing : find [closing] (text.drop (i + 2)) = none) :
    ¬ Filled opening closing value text out := by
  obtain ⟨before, split, _, clear⟩ := find_opening opened
  rw [split]
  exact not_filled_open ne clear (not_mem_of_find missing)

/-- One round of a scan that fills in. -/
theorem filled_of_find (ne : opening.1 ≠ opening.2)
    (opened : find [opening.1, opening.2] text = some i)
    (closed : find [closing] (text.drop (i + 2)) = some j) :
    Filled opening closing value text out ↔
      ∃ field rest, value ((text.drop (i + 2)).take j) = some field ∧
        Filled opening closing value ((text.drop (i + 2)).drop (j + 1)) rest ∧
          out = text.take i ++ (field ++ rest) := by
  obtain ⟨before, split, length, clear⟩ := find_opening opened
  obtain ⟨split', open'⟩ := find_closing closed
  have first : text.take i = before := by
    rw [split, ← length, List.take_left]
  rw [first, ← filled_found ne clear open', ← split', ← split]

end Scan

end Filling

/-! ## The same template in other letters -/

/-- A way to read a text in other letters that keeps these ones where they are. -/
structure Rereading {κ μ : Type} (read : List κ → List μ) (letter : κ → μ) (kept : κ → Prop) : Prop where
  split : ∀ {x a y}, kept a → read (x ++ a :: y) = read x ++ letter a :: read y
  unsplit : ∀ {x a before after}, kept a → read x = before ++ letter a :: after →
    ∃ x' y', x = x' ++ a :: y' ∧ read x' = before ∧ read y' = after
  nil : ∀ {x}, read x = [] ↔ x = []

theorem rereading_map {κ μ : Type} {letter : κ → μ} (inj : ∀ a b, letter a = letter b → a = b) :
    Rereading (List.map letter) letter fun _ => True where
  split _ := List.map_append
  unsplit _ h := by
    obtain ⟨x', rest, rfl, hx, hrest⟩ := List.map_eq_append_iff.mp h
    obtain ⟨b, y', rfl, hb, hy⟩ := List.map_eq_cons_iff.mp hrest
    obtain rfl := inj _ _ hb
    exact ⟨x', y', rfl, hx, hy⟩
  nil := List.map_eq_nil_iff

section Letters

variable {μ : Type} {read : List κ → List μ} {letter : κ → μ} {kept : κ → Prop} {opening : κ × κ}
  {closing : κ} {text : List κ}

theorem Rereading.mem (h : Rereading read letter kept) {a : κ} (ha : kept a) :
    letter a ∈ read text ↔ a ∈ text := by
  constructor
  · intro mem
    obtain ⟨before, after, split⟩ := List.append_of_mem mem
    obtain ⟨x, y, rfl, _, _⟩ := h.unsplit ha split
    exact List.mem_append_right _ List.mem_cons_self
  · intro mem
    obtain ⟨x, y, rfl⟩ := List.append_of_mem mem
    rw [h.split ha]
    exact List.mem_append_right _ List.mem_cons_self

theorem Rereading.opens (h : Rereading read letter kept) (first : kept opening.1)
    (second : kept opening.2) :
    [letter opening.1, letter opening.2] <:+: read text ↔ [opening.1, opening.2] <:+: text := by
  constructor
  · rintro ⟨before, after, split⟩
    rw [List.append_assoc] at split
    obtain ⟨x, y, rfl, _, rest⟩ := h.unsplit first split.symm
    obtain ⟨x', y', rfl, none, _⟩ := @h.unsplit _ _ [] _ second rest
    obtain rfl := h.nil.mp none
    exact ⟨x, y', by rw [List.append_assoc]; rfl⟩
  · rintro ⟨x, y, rfl⟩
    refine ⟨read x, read y, ?_⟩
    have tail := @h.split [] _ y second
    rw [h.nil.mpr rfl] at tail
    rw [List.append_assoc, List.append_assoc]
    exact ((h.split first).trans (congrArg (fun t => read x ++ letter opening.1 :: t) tail)).symm

/-- **A template is one in any letters**, with the same fields. -/
theorem Rereading.template (h : Rereading read letter kept) (first : kept opening.1)
    (second : kept opening.2) (last : kept closing) {Name : List μ → Prop} {names : List (List μ)} :
    Template (letter opening.1, letter opening.2) (letter closing) Name (read text) names ↔
      ∃ names', Template opening closing (fun name => Name (read name)) text names' ∧
        names = names'.map read := by
  constructor
  · intro template
    generalize same : read text = text' at template
    induction template generalizing text with
    | plain none =>
      rw [← same] at none
      exact ⟨[], .plain fun there => none ((h.opens first second).mpr there), rfl⟩
    | @field before name after names none open' named _ ih =>
      obtain ⟨x, rest, rfl, rfl, hrest⟩ := h.unsplit first same
      obtain ⟨x', rest', rfl, empty, hrest'⟩ := @h.unsplit _ _ [] _ second hrest
      obtain rfl := h.nil.mp empty
      obtain ⟨key, y, rfl, rfl, hy⟩ := h.unsplit last hrest'
      obtain ⟨names', template, rfl⟩ := ih hy
      refine ⟨key :: names', .field (fun there => none ((h.opens first second).mpr there))
        (fun mem => open' ((h.mem last).mpr mem)) named template, rfl⟩
  · rintro ⟨names', template, rfl⟩
    induction template with
    | plain none => exact .plain fun there => none ((h.opens first second).mp there)
    | @field before name after names none open' named _ ih =>
      have tail := @h.split [] _ (name ++ closing :: after) second
      rw [h.nil.mpr rfl, h.split last] at tail
      have whole : read (before ++ opening.1 :: opening.2 :: (name ++ closing :: after)) =
          read before ++ letter opening.1 :: letter opening.2 ::
            (read name ++ letter closing :: read after) :=
        (h.split first).trans (congrArg (fun t => read before ++ letter opening.1 :: t) tail)
      rw [whole]
      exact .field (fun there => none ((h.opens first second).mp there))
        (fun mem => open' ((h.mem last).mp mem)) named ih

end Letters

end RoLauncher.Text
