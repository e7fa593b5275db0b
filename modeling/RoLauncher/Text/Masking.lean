import RoLauncher.Text.Replace

/-!
# What a sequence of replacements hides

`Maximal` occurrences are those that no other occurrence contains. Where they
keep clear of each other (`Separate`), replacing the patterns from the longest
to the shortest hides the maximal occurrences and nothing else
(`replaceAll_hidden`): an occurrence of a shorter pattern inside one is gone
before its turn comes. So every occurrence is hidden, and what is left is the
same whatever the order among patterns of the same size.
-/

namespace RoLauncher.Text

variable {α κ : Type}

/-! ## Where a piece stands -/

/-- The piece that begins at this place of the source. -/
def At (ps : List (Piece α)) (i : Nat) (p : Piece α) : Prop :=
  ∃ before after, ps = before ++ p :: after ∧ (source before).length = i

section Places

variable {ps qs : List (Piece α)} {p q : Piece α} {i j : Nat}

theorem not_at_nil : ¬ At ([] : List (Piece α)) i p := by
  rintro ⟨before, after, split, _⟩
  cases before <;> cases split

theorem at_cons : At (q :: ps) i p ↔ (i = 0 ∧ p = q) ∨ ∃ j, i = q.source.length + j ∧ At ps j p := by
  constructor
  · rintro ⟨before, after, split, here⟩
    cases before with
    | nil =>
      cases split
      exact .inl ⟨here.symm, rfl⟩
    | cons b before =>
      cases split
      refine .inr ⟨_, ?_, before, after, rfl, rfl⟩
      rw [← here, source_cons, List.length_append]
  · rintro (⟨rfl, rfl⟩ | ⟨j, rfl, before, after, rfl, here⟩)
    · exact ⟨[], ps, rfl, rfl⟩
    · exact ⟨q :: before, after, rfl, by rw [source_cons, List.length_append, here]⟩

theorem at_raws_append {w : List α} : At (w.map Piece.raw ++ ps) i p ↔
    (∃ a, w[i]? = some a ∧ p = .raw a) ∨ ∃ j, i = w.length + j ∧ At ps j p := by
  induction w generalizing i with
  | nil => simp
  | cons a w ih =>
    rw [List.map_cons, List.cons_append, at_cons]
    constructor
    · rintro (⟨rfl, rfl⟩ | ⟨j, rfl, there⟩)
      · exact .inl ⟨a, rfl, rfl⟩
      · obtain ⟨b, found, rfl⟩ | ⟨k, rfl, further⟩ := ih.mp there
        · refine .inl ⟨b, ?_, rfl⟩
          rw [Nat.add_comm]
          exact found
        · exact .inr ⟨k, by simp [Piece.source]; omega, further⟩
    · rintro (⟨b, found, rfl⟩ | ⟨j, rfl, there⟩)
      · cases i with
        | zero =>
          cases found
          exact .inl ⟨rfl, rfl⟩
        | succ i => exact .inr ⟨i, by simp [Piece.source]; omega, ih.mpr (.inl ⟨b, found, rfl⟩)⟩
      · exact .inr ⟨w.length + j, by simp [Piece.source]; omega, ih.mpr (.inr ⟨j, rfl, there⟩)⟩

/-- The source at a piece begins with what the piece stands for. -/
theorem At.source_drop (h : At ps i p) : p.source <+: (source ps).drop i := by
  obtain ⟨before, after, rfl, rfl⟩ := h
  rw [source_append, List.drop_left, source_cons]
  exact List.prefix_append _ _

/-- Two pieces are one, or apart. -/
theorem At.apart (h : At ps i p) (h' : At ps j q) :
    i + p.source.length ≤ j ∨ j + q.source.length ≤ i ∨ (i = j ∧ p = q) := by
  induction ps generalizing i j with
  | nil => exact absurd h not_at_nil
  | cons r ps ih =>
    obtain ⟨rfl, rfl⟩ | ⟨k, rfl, further⟩ := at_cons.mp h
    · obtain ⟨rfl, rfl⟩ | ⟨l, rfl, further'⟩ := at_cons.mp h'
      · exact .inr (.inr ⟨rfl, rfl⟩)
      · exact .inl (by omega)
    · obtain ⟨rfl, rfl⟩ | ⟨l, rfl, further'⟩ := at_cons.mp h'
      · exact .inr (.inl (by omega))
      · obtain le | le | ⟨rfl, rfl⟩ := ih further further'
        · exact .inl (by omega)
        · exact .inr (.inl (by omega))
        · exact .inr (.inr ⟨rfl, rfl⟩)

/-- Every place of the source belongs to a piece. -/
theorem exists_at (inside : i < (source ps).length) :
    ∃ j p, At ps j p ∧ j ≤ i ∧ i < j + p.source.length := by
  induction ps generalizing i with
  | nil => cases inside
  | cons q ps ih =>
    by_cases here : i < q.source.length
    · exact ⟨0, q, at_cons.mpr (.inl ⟨rfl, rfl⟩), Nat.zero_le _, by omega⟩
    · rw [source_cons, List.length_append] at inside
      obtain ⟨j, p, there, le, lt⟩ := ih (i := i - q.source.length) (by omega)
      exact ⟨q.source.length + j, p, at_cons.mpr (.inr ⟨j, rfl, there⟩), by omega, by omega⟩

/-- Nothing empty is hidden. -/
def Full (ps : List (Piece α)) : Prop := ∀ p ∈ ps, 0 < p.source.length

theorem Full.tail (h : Full (p :: ps)) : Full ps := fun q mem => h q (List.mem_cons_of_mem _ mem)

theorem Full.head (h : Full (p :: ps)) : 0 < p.source.length := h p List.mem_cons_self

theorem Full.at_zero (h : Full (q :: ps)) : At (q :: ps) 0 p ↔ p = q := by
  rw [at_cons]
  refine ⟨?_, fun same => .inl ⟨rfl, same⟩⟩
  rintro (⟨_, same⟩ | ⟨j, zero, _⟩)
  · exact same
  · have := h.head
    omega

theorem Full.at_later (h : Full (q :: ps)) : At (q :: ps) (q.source.length + i) p ↔ At ps i p := by
  rw [at_cons]
  constructor
  · rintro (⟨zero, _⟩ | ⟨j, same, there⟩)
    · have := h.head
      omega
    · rw [show i = j by omega]
      exact there
  · exact fun there => .inr ⟨i, rfl, there⟩

/-- Pieces that hide the same places of the same source are the same. -/
theorem pieces_ext (same : source ps = source qs) (full : Full ps) (full' : Full qs)
    (hidden : ∀ i w, At ps i (.hidden w) ↔ At qs i (.hidden w)) : ps = qs := by
  have empty : ∀ {p : Piece α} {ps : List (Piece α)}, Full (p :: ps) → source (p :: ps) ≠ [] := by
    intro p ps full none
    have := full.head
    rw [(List.append_eq_nil_iff.mp none).1] at this
    cases this
  induction ps generalizing qs with
  | nil =>
    cases qs with
    | nil => rfl
    | cons q qs => exact absurd same.symm (empty full')
  | cons p ps ih =>
    cases qs with
    | nil => exact absurd same (empty full)
    | cons q qs =>
      have heads : p = q := by
        cases p with
        | raw a =>
          cases q with
          | raw b =>
            have first : a = b := (List.cons.inj same).1
            rw [first]
          | hidden w => exact ((full.at_zero).mp ((hidden 0 w).mpr (full'.at_zero.mpr rfl))).symm
        | hidden w => exact full'.at_zero.mp ((hidden 0 w).mp (full.at_zero.mpr rfl))
      subst heads
      have sources : source ps = source qs := List.append_cancel_left same
      refine congrArg _ (ih sources full.tail full'.tail fun i w => ?_)
      rw [← full.at_later, hidden, full'.at_later]

end Places

/-! ## One replacement -/

/-- The pattern occurs at this place of the text. -/
def Occurs (letter : α → κ) (text : List α) (i : Nat) (pattern : List κ) : Prop :=
  pattern <+: (text.map letter).drop i

instance [DecidableEq κ] (letter : α → κ) (text : List α) (i : Nat) (pattern : List κ) :
    Decidable (Occurs letter text i pattern) :=
  inferInstanceAs (Decidable (pattern <+: (text.map letter).drop i))

section Occurrences

variable {letter : α → κ} {pattern : List κ} {text more : List α} {i : Nat}

theorem occurs_append_right :
    Occurs letter (text ++ more) (text.length + i) pattern ↔ Occurs letter more i pattern := by
  rw [Occurs, Occurs, List.map_append, ← @List.length_map _ _ text letter, List.drop_append,
    List.drop_eq_nil_of_le (Nat.le_add_right _ _), Nat.add_sub_cancel_left, List.nil_append]

theorem occurs_of_starts {w : List α} (hw : w <+: text.drop i) :
    Occurs letter text i (w.map letter) := by
  rw [Occurs, ← List.map_drop]
  exact hw.map letter

theorem Occurs.length_le (h : Occurs letter text i pattern) (some : pattern ≠ []) :
    i + pattern.length ≤ text.length := by
  have short := List.IsPrefix.length_le h
  rw [List.length_drop, List.length_map] at short
  have := List.length_pos_iff.mpr some
  omega

end Occurrences

section Hiding

variable {letter : α → κ} {pattern : List κ} {ps ps' : List (Piece α)} {i : Nat} {w : List α}

theorem Hides.source_eq (h : Hides letter pattern ps ps') : source ps' = source ps := by
  induction h with
  | nil => rfl
  | hit _ _ ih => rw [source_cons, source_append, source_raws, ih]; rfl
  | miss _ _ ih => rw [source_cons, source_cons, ih]

theorem Hides.full (h : Hides letter pattern ps ps') (some : pattern ≠ []) (full : Full ps) :
    Full ps' := by
  induction h with
  | nil => exact full
  | @hit w ps ps' hw _ ih =>
    intro p mem
    obtain rfl | mem := List.mem_cons.mp mem
    · rw [← hw] at some
      exact List.length_pos_iff.mpr fun none => some (by rw [show w = [] from none]; rfl)
    · exact ih (fun q later => full q (List.mem_append_right _ later)) p mem
  | miss _ _ ih =>
    intro p mem
    obtain rfl | mem := List.mem_cons.mp mem
    · exact full.head
    · exact ih full.tail p mem

/-- What was hidden stays hidden. -/
theorem Hides.kept (h : Hides letter pattern ps ps') (there : At ps i (.hidden w)) :
    At ps' i (.hidden w) := by
  induction h generalizing i with
  | nil => exact absurd there not_at_nil
  | hit _ _ ih =>
    obtain ⟨a, _, never⟩ | ⟨j, rfl, further⟩ := at_raws_append.mp there
    · cases never
    · exact at_cons.mpr (.inr ⟨j, rfl, ih further⟩)
  | miss _ _ ih =>
    obtain ⟨rfl, rfl⟩ | ⟨j, rfl, further⟩ := at_cons.mp there
    · exact at_cons.mpr (.inl ⟨rfl, rfl⟩)
    · exact at_cons.mpr (.inr ⟨j, rfl, ih further⟩)

/-- What is hidden now was hidden before, or was a raw match. -/
theorem Hides.new (h : Hides letter pattern ps ps') (there : At ps' i (.hidden w)) :
    At ps i (.hidden w) ∨ (w.map letter = pattern ∧
      ∀ k a, w[k]? = some a → At ps (i + k) (.raw a)) := by
  induction h generalizing i with
  | nil => exact absurd there not_at_nil
  | @hit u ps ps' hu _ ih =>
    obtain ⟨rfl, same⟩ | ⟨j, rfl, further⟩ := at_cons.mp there
    · cases same
      refine .inr ⟨hu, fun k a found => at_raws_append.mpr (.inl ⟨a, ?_, rfl⟩)⟩
      rw [Nat.zero_add]
      exact found
    · obtain before | ⟨hw, raw⟩ := ih further
      · exact .inl (at_raws_append.mpr (.inr ⟨j, rfl, before⟩))
      · exact .inr ⟨hw, fun k a found =>
          at_raws_append.mpr (.inr ⟨j + k, Nat.add_assoc _ _ _, raw k a found⟩)⟩
  | miss _ _ ih =>
    obtain ⟨rfl, same⟩ | ⟨j, rfl, further⟩ := at_cons.mp there
    · exact .inl (at_cons.mpr (.inl ⟨rfl, same⟩))
    · obtain before | ⟨hw, raw⟩ := ih further
      · exact .inl (at_cons.mpr (.inr ⟨j, rfl, before⟩))
      · exact .inr ⟨hw, fun k a found =>
          at_cons.mpr (.inr ⟨j + k, Nat.add_assoc _ _ _, raw k a found⟩)⟩

/-- From `i` on, so many places are raw. -/
def RawAt (ps : List (Piece α)) (i n : Nat) : Prop := ∀ k, k < n → ∃ a, At ps (i + k) (.raw a)

/-- A raw occurrence at the front is a match. -/
theorem matches_of_raw (full : Full ps) (occurs : Occurs letter (source ps) 0 pattern)
    (raw : RawAt ps 0 pattern.length) : Matches letter pattern ps := by
  induction pattern generalizing ps with
  | nil => exact ⟨[], ps, rfl, rfl⟩
  | cons k pattern ih =>
    obtain ⟨a, first⟩ := raw 0 (Nat.succ_pos _)
    cases ps with
    | nil => exact absurd first not_at_nil
    | cons p ps =>
      rw [Nat.add_zero, full.at_zero] at first
      subst first
      obtain ⟨same, occurs⟩ := List.cons_prefix_cons.mp occurs
      obtain ⟨w, rest, rfl, hw⟩ := ih full.tail occurs fun k lt => by
        obtain ⟨b, there⟩ := raw (k + 1) (Nat.succ_lt_succ lt)
        rw [Nat.zero_add, Nat.add_comm] at there
        exact ⟨b, by rw [Nat.zero_add]; exact full.at_later.mp there⟩
      exact ⟨a :: w, rest, rfl, by rw [List.map_cons, hw, same]⟩

/-- **A raw occurrence that no other crosses from the left is hidden.** -/
theorem Hides.hidden (h : Hides letter pattern ps ps') (some : pattern ≠ []) (full : Full ps)
    (occurs : Occurs letter (source ps) i pattern) (raw : RawAt ps i pattern.length)
    (clear : ∀ j, Occurs letter (source ps) j pattern → j < i → j + pattern.length ≤ i) :
    ∃ w, At ps' i (.hidden w) ∧ w.map letter = pattern := by
  induction h generalizing i with
  | nil =>
    obtain ⟨a, never⟩ := raw 0 (List.length_pos_iff.mpr some)
    exact absurd never not_at_nil
  | @hit w ps ps' hw _ ih =>
    obtain rfl | later := Nat.eq_zero_or_pos i
    · exact ⟨w, at_cons.mpr (.inl ⟨rfl, rfl⟩), hw⟩
    · have here : Occurs letter (source (w.map Piece.raw ++ ps)) 0 pattern := by
        rw [source_append, source_raws, ← hw]
        exact occurs_of_starts (List.prefix_append _ _)
      have long := clear 0 here later
      rw [Nat.zero_add, ← hw, List.length_map] at long
      obtain ⟨j, rfl⟩ := Nat.exists_eq_add_of_le long
      rw [source_append, source_raws] at occurs clear
      obtain ⟨u, there, hu⟩ := ih (fun q mem => full q (List.mem_append_right _ mem))
        (occurs_append_right.mp occurs) (fun k lt => by
          obtain ⟨a, there⟩ := raw k lt
          obtain ⟨b, found, _⟩ | ⟨l, same, there⟩ := at_raws_append.mp there
          · have := (List.getElem?_eq_some_iff.mp found).1
            omega
          · exact ⟨a, by rw [show j + k = l by omega]; exact there⟩)
        fun k other lt => by
          have := clear (w.length + k) (occurs_append_right.mpr other) (by omega)
          omega
      exact ⟨u, at_cons.mpr (.inr ⟨j, rfl, there⟩), hu⟩
  | @miss p ps ps' missed _ ih =>
    obtain rfl | later := Nat.eq_zero_or_pos i
    · exact absurd (matches_of_raw full occurs raw) missed
    · obtain ⟨a, there⟩ := raw 0 (List.length_pos_iff.mpr some)
      obtain ⟨zero, _⟩ | ⟨j, rfl, _⟩ := at_cons.mp there
      · omega
      rw [source_cons] at occurs clear
      obtain ⟨u, there, hu⟩ := ih full.tail (occurs_append_right.mp occurs)
        (fun k lt => by
          obtain ⟨a, there⟩ := raw k lt
          rw [Nat.add_assoc] at there
          exact ⟨a, full.at_later.mp there⟩)
        fun k other lt => by
          have := clear (p.source.length + k) (occurs_append_right.mpr other) (by omega)
          omega
      exact ⟨u, at_cons.mpr (.inr ⟨j, rfl, there⟩), hu⟩

end Hiding

/-! ## Occurrences that contain others -/

/-- An occurrence that no other occurrence of the family contains. -/
structure Maximal (letter : α → κ) (patterns : List (List κ)) (text : List α) (i : Nat)
    (v : List κ) : Prop where
  mem : v ∈ patterns
  occurs : Occurs letter text i v
  maximal : ∀ j u, u ∈ patterns → Occurs letter text j u → j ≤ i → i + v.length ≤ j + u.length →
    j = i ∧ u.length = v.length

/-- The maximal occurrences keep clear of each other. -/
def Separate (letter : α → κ) (patterns : List (List κ)) (text : List α) : Prop :=
  ∀ i v j u, Maximal letter patterns text i v → Maximal letter patterns text j u → i < j →
    i + v.length ≤ j

section Containment

variable {letter : α → κ} {patterns patterns' : List (List κ)} {text : List α} {i j : Nat}
  {v u : List κ}

/-- An occurrence inside another one is a part of its pattern. -/
theorem Occurs.inside (hv : Occurs letter text i v) (hu : Occurs letter text j u) (le : j ≤ i)
    (ends : i + v.length ≤ j + u.length) : ∃ before after, u = before ++ v ++ after ∧
      before.length = i - j := by
  have whole : u = ((text.map letter).drop j).take u.length := List.prefix_iff_eq_take.mp hu
  have part : v = ((text.map letter).drop i).take v.length := List.prefix_iff_eq_take.mp hv
  have cut : (u.drop (i - j)).take v.length = v := by
    rw [whole, List.drop_take, List.drop_drop, List.take_take, show j + (i - j) = i by omega,
      show min v.length (u.length - (i - j)) = v.length by omega]
    exact part.symm
  refine ⟨u.take (i - j), (u.drop (i - j)).drop v.length, ?_, ?_⟩
  · calc u = u.take (i - j) ++ u.drop (i - j) := (List.take_append_drop _ _).symm
      _ = u.take (i - j) ++
          ((u.drop (i - j)).take v.length ++ (u.drop (i - j)).drop v.length) :=
        congrArg _ (List.take_append_drop v.length _).symm
      _ = _ := by rw [cut, List.append_assoc]
  · rw [List.length_take]
    omega

theorem Occurs.eq_of_length (hv : Occurs letter text i v) (hu : Occurs letter text i u)
    (same : v.length = u.length) : v = u := by
  have whole : u = ((text.map letter).drop i).take u.length := List.prefix_iff_eq_take.mp hu
  have part : v = ((text.map letter).drop i).take v.length := List.prefix_iff_eq_take.mp hv
  rw [part, whole, same, ← whole]

/-- Every occurrence lies in a maximal one. -/
theorem exists_maximal (mem : v ∈ patterns) (some : ∀ u ∈ patterns, u ≠ [])
    (occurs : Occurs letter text i v) :
    ∃ j u, Maximal letter patterns text j u ∧ j ≤ i ∧ i + v.length ≤ j + u.length := by
  induction hn : text.length - v.length using Nat.strongRecOn generalizing i v with
  | ind n ih =>
    by_cases maximal : ∀ j u, u ∈ patterns → Occurs letter text j u → j ≤ i →
        i + v.length ≤ j + u.length → j = i ∧ u.length = v.length
    · exact ⟨i, v, ⟨mem, occurs, maximal⟩, Nat.le_refl _, Nat.le_refl _⟩
    · push Not at maximal
      obtain ⟨j, u, mem', occurs', le, ends, longer⟩ := maximal
      have short := occurs'.length_le (some u mem')
      have more : v.length < u.length := by
        by_contra not
        have := longer (by omega)
        omega
      obtain ⟨k, x, container, le', ends'⟩ := ih (text.length - u.length) (by omega) mem' occurs' rfl
      exact ⟨k, x, container, by omega, by omega⟩

theorem Maximal.congr (same : ∀ v, v ∈ patterns ↔ v ∈ patterns')
    (h : Maximal letter patterns text i v) : Maximal letter patterns' text i v :=
  ⟨(same v).mp h.mem, h.occurs, fun j u mem => h.maximal j u ((same u).mpr mem)⟩

/-- Two maximal occurrences at one place are one. -/
theorem Maximal.unique (h : Maximal letter patterns text i v) (h' : Maximal letter patterns text i u) :
    v = u := by
  refine h.occurs.eq_of_length h'.occurs ?_
  obtain le | le := Nat.le_total v.length u.length
  · exact (h.maximal i u h'.mem h'.occurs (Nat.le_refl _) (by omega)).2.symm
  · exact (h'.maximal i v h.mem h.occurs (Nat.le_refl _) (by omega)).2

end Containment

/-! ## All of them, from the longest to the shortest -/

/-- What a sequence of replacements hides. -/
inductive HidesAll (letter : α → κ) : List (List κ) → List (Piece α) → List (Piece α) → Prop
  | nil {ps : List (Piece α)} : HidesAll letter [] ps ps
  | cons {v : List κ} {rest : List (List κ)} {ps qs ps' : List (Piece α)} : Hides letter v ps qs →
      HidesAll letter rest qs ps' → HidesAll letter (v :: rest) ps ps'

section Sequence

variable {letter : α → κ} {mask : List α}

/-- **The replacements hide pieces**, as long as no pattern can touch the mask. -/
theorem replaceAll_render [DecidableEq κ] {patterns : List (List κ)} (some : ∀ v ∈ patterns, v ≠ [])
    (foreign : ∀ v ∈ patterns, Foreign (mask.map letter) v) (ps : List (Piece α)) :
    ∃ ps', HidesAll letter patterns ps ps' ∧
      replaceAll letter mask patterns (render mask ps) = render mask ps' := by
  induction patterns generalizing ps with
  | nil => exact ⟨ps, .nil, rfl⟩
  | cons v rest ih =>
    obtain ⟨qs, hides, replaced⟩ :=
      replace_render (some v List.mem_cons_self) (foreign v List.mem_cons_self) ps
    obtain ⟨ps', all, rendered⟩ := ih (fun u mem => some u (List.mem_cons_of_mem _ mem))
      (fun u mem => foreign u (List.mem_cons_of_mem _ mem)) qs
    refine ⟨ps', .cons hides all, ?_⟩
    rw [replaceAll_cons, replaced, rendered]

/-- Where the replacements stand: the maximal occurrences of the patterns that are done are hidden,
and nothing else. -/
structure Hidden (letter : α → κ) (patterns done : List (List κ)) (text : List α)
    (ps : List (Piece α)) : Prop where
  full : Full ps
  source_eq : source ps = text
  sound : ∀ i w, At ps i (.hidden w) →
    w.map letter ∈ done ∧ Maximal letter patterns text i (w.map letter)
  complete : ∀ i v, v ∈ done → Maximal letter patterns text i v →
    ∃ w, At ps i (.hidden w) ∧ w.map letter = v

variable {patterns done : List (List κ)} {text : List α} {ps ps' : List (Piece α)} {v : List κ}

theorem Hidden.start : Hidden letter patterns [] text (text.map Piece.raw) where
  full p mem := by
    obtain ⟨a, _, rfl⟩ := List.mem_map.mp mem
    exact Nat.one_pos
  source_eq := source_raws text
  sound i w there := by
    rw [← List.append_nil (text.map Piece.raw)] at there
    obtain ⟨a, _, never⟩ | ⟨j, _, never⟩ := at_raws_append.mp there
    · cases never
    · exact absurd never not_at_nil
  complete i v never := by cases never

/-- A pattern whose turn comes after those that may contain it. -/
theorem Hidden.step {size : List κ → Nat}
    (grows : ∀ u v w : List κ, (u ≠ [] ∨ w ≠ []) → size v < size (u ++ v ++ w))
    (some : ∀ u ∈ patterns, u ≠ []) (separate : Separate letter patterns text)
    (h : Hidden letter patterns done text ps) (mem : v ∈ patterns)
    (larger : ∀ u ∈ patterns, size v < size u → u ∈ done) (hides : Hides letter v ps ps') :
    Hidden letter patterns (done ++ [v]) text ps' := by
  have source' : source ps' = text := hides.source_eq.trans h.source_eq
  refine ⟨hides.full (some v mem) h.full, source', fun i w there => ?_, fun i u done' maximal => ?_⟩
  · obtain before | ⟨hw, raw⟩ := hides.new there
    · obtain ⟨listed, maximal⟩ := h.sound i w before
      exact ⟨List.mem_append_left _ listed, maximal⟩
    · have occurs : Occurs letter text i v := by
        rw [← hw, ← source']
        exact occurs_of_starts there.source_drop
      obtain ⟨j, u, container, le, ends⟩ := exists_maximal mem some occurs
      rw [hw]
      refine ⟨List.mem_append_right _ (List.mem_singleton.mpr rfl), ?_⟩
      by_cases same : u.length = v.length
      · obtain rfl : j = i := by omega
        rwa [occurs.eq_of_length container.occurs same.symm]
      · -- A longer pattern had its turn before, and hid these places.
        obtain ⟨before, after, split, _⟩ := occurs.inside container.occurs le ends
        have strict : before ≠ [] ∨ after ≠ [] := by
          by_contra none
          push Not at none
          rw [none.1, none.2] at split
          exact same (by rw [split]; simp)
        have bigger : size v < size u := by
          rw [split]
          exact grows before v after strict
        obtain ⟨w', there', hw'⟩ := h.complete j u (larger u container.mem bigger) container
        have length' : w'.length = u.length := by rw [← hw', List.length_map]
        have wide : 0 < v.length := List.length_pos_iff.mpr (some v mem)
        obtain ⟨a, first⟩ : ∃ a, w[0]? = Option.some a := by
          rw [← hw, List.length_map] at wide
          exact ⟨w.get ⟨0, wide⟩, List.getElem?_eq_getElem wide⟩
        have front := raw 0 a first
        rw [Nat.add_zero] at front
        obtain clear | clear | ⟨_, never⟩ := there'.apart front
        · simp only [Piece.source, length'] at clear
          omega
        · simp only [Piece.source, List.length_cons, List.length_nil] at clear
          omega
        · cases never
  · obtain listed | here := List.mem_append.mp done'
    · obtain ⟨w, there, hw⟩ := h.complete i u listed maximal
      exact ⟨w, hides.kept there, hw⟩
    · obtain rfl := List.mem_singleton.mp here
      by_cases raw : RawAt ps i u.length
      · refine hides.hidden (some u mem) h.full (by rw [h.source_eq]; exact maximal.occurs) raw ?_
        intro j other lt
        rw [h.source_eq] at other
        obtain ⟨k, x, container, le, ends⟩ := exists_maximal mem some other
        have := separate k x i u container maximal (by omega)
        omega
      · -- A place that is hidden already belongs to this very occurrence.
        rw [RawAt] at raw
        push Not at raw
        obtain ⟨k, lt, hidden⟩ := raw
        have inside := maximal.occurs.length_le (some u mem)
        obtain ⟨p, q, there, le, covers⟩ := @exists_at _ ps (i + k) (by
          rw [h.source_eq]
          omega)
        cases q with
        | raw a =>
          simp only [Piece.source, List.length_cons, List.length_nil] at covers
          rw [show p = i + k by omega] at there
          exact absurd there (hidden a)
        | hidden w =>
          obtain ⟨_, other⟩ := h.sound p w there
          have length' : (w.map letter).length = w.length := List.length_map _
          simp only [Piece.source] at covers
          obtain less | rfl | more := Nat.lt_trichotomy p i
          · have := separate p _ i u other maximal less
            omega
          · exact ⟨w, hides.kept there, other.unique maximal⟩
          · have := separate i u p _ maximal other more
            omega

/-- **The whole sequence.** -/
theorem HidesAll.hidden {size : List κ → Nat}
    (grows : ∀ u v w : List κ, (u ≠ [] ∨ w ≠ []) → size v < size (u ++ v ++ w))
    (some : ∀ u ∈ patterns, u ≠ []) (separate : Separate letter patterns text)
    {todo : List (List κ)} (all : HidesAll letter todo ps ps') (split : patterns = done ++ todo)
    (sorted : patterns.Pairwise fun v u => size u ≤ size v)
    (h : Hidden letter patterns done text ps) : Hidden letter patterns patterns text ps' := by
  induction all generalizing done with
  | nil =>
    rw [List.append_nil] at split
    rwa [split] at h ⊢
  | @cons v rest ps qs ps' hides _ ih =>
    have mem : v ∈ patterns := by
      rw [split]
      exact List.mem_append_right _ List.mem_cons_self
    refine ih (by rw [split, List.append_assoc]; rfl) (h.step grows some separate mem ?_ hides)
    intro u member larger
    rw [split] at member sorted
    obtain listed | later := List.mem_append.mp member
    · exact listed
    · have ordered := (List.pairwise_append.mp sorted).2.1
      obtain rfl | later := List.mem_cons.mp later
      · exact absurd larger (Nat.lt_irrefl _)
      · have := (List.pairwise_cons.mp ordered).1 u later
        omega

/-- **What the replacements leave** is the text with its maximal occurrences hidden. -/
theorem replaceAll_hidden [DecidableEq κ] {size : List κ → Nat}
    (grows : ∀ u v w : List κ, (u ≠ [] ∨ w ≠ []) → size v < size (u ++ v ++ w))
    (some : ∀ u ∈ patterns, u ≠ []) (foreign : ∀ v ∈ patterns, Foreign (mask.map letter) v)
    (separate : Separate letter patterns text)
    (sorted : patterns.Pairwise fun v u => size u ≤ size v) :
    ∃ ps, Hidden letter patterns patterns text ps ∧
      replaceAll letter mask patterns text = render mask ps := by
  obtain ⟨ps, all, rendered⟩ := replaceAll_render some foreign (text.map Piece.raw)
  rw [render_raws] at rendered
  exact ⟨ps, all.hidden grows some separate (List.nil_append _).symm sorted .start, rendered⟩

end Sequence

/-! ## What is left -/

section Left

variable {letter : α → κ} {mask : List α} {patterns patterns' : List (List κ)} {text : List α}
  {ps qs : List (Piece α)} {v : List κ} {i j : Nat} {a : α}

theorem mem_render (mem : a ∈ render mask ps) : a ∈ mask ∨ ∃ i, At ps i (.raw a) := by
  induction ps with
  | nil => cases mem
  | cons p ps ih =>
    rw [render_cons] at mem
    obtain here | later := List.mem_append.mp mem
    · cases p with
      | raw b =>
        obtain rfl := List.mem_singleton.mp here
        exact .inr ⟨0, at_cons.mpr (.inl ⟨rfl, rfl⟩)⟩
      | hidden w => exact .inl here
    · obtain masked | ⟨i, there⟩ := ih later
      · exact .inl masked
      · exact .inr ⟨_, at_cons.mpr (.inr ⟨i, rfl, there⟩)⟩

theorem At.getElem? (there : At ps i (.raw a)) : (source ps)[i]? = some a := by
  obtain ⟨rest, split⟩ := there.source_drop
  rw [← Nat.add_zero i, ← List.getElem?_drop, ← split]
  rfl

/-- What is left lies outside all occurrences. -/
theorem Hidden.outside (h : Hidden letter patterns patterns text ps) (some : ∀ u ∈ patterns, u ≠ [])
    (there : At ps i (.raw a)) (mem : v ∈ patterns) (occurs : Occurs letter text j v) :
    i < j ∨ j + v.length ≤ i := by
  obtain ⟨k, u, container, le, ends⟩ := exists_maximal mem some occurs
  obtain ⟨w, hidden, hw⟩ := h.complete k u container.mem container
  have length' : w.length = u.length := by rw [← hw, List.length_map]
  obtain clear | clear | ⟨_, never⟩ := hidden.apart there
  · simp only [Piece.source, length'] at clear
    exact .inr (by omega)
  · simp only [Piece.source, List.length_cons, List.length_nil] at clear
    exact .inl (by omega)
  · cases never

theorem Hidden.not_matches {before rest : List (Piece α)}
    (h : Hidden letter patterns patterns text ps) (some : ∀ u ∈ patterns, u ≠ [])
    (mem : v ∈ patterns) (split : ps = before ++ rest) : ¬ Matches letter v rest := by
  rintro ⟨w, more, rfl, hw⟩
  cases w with
  | nil => exact some v mem hw.symm
  | cons a w =>
    have there : At ps (source before).length (.raw a) := ⟨before, _, split, rfl⟩
    have occurs : Occurs letter text (source before).length v := by
      rw [← h.source_eq, split, source_append, ← hw, ← Nat.add_zero (source before).length]
      refine occurs_append_right.mpr (occurs_of_starts ?_)
      rw [source_append, source_raws]
      exact List.prefix_append _ _
    have wide := List.length_pos_iff.mpr (some v mem)
    obtain less | more := h.outside some there mem occurs <;> omega

/-- No pattern occurs in what is left. -/
theorem Hidden.not_occurs_render (h : Hidden letter patterns patterns text ps)
    (some : ∀ u ∈ patterns, u ≠ []) (mem : v ∈ patterns) (foreign : Foreign (mask.map letter) v)
    (k : Nat) : ¬ Occurs letter (render mask ps) k v := by
  have suffixes : ∀ (rest before : List (Piece α)) (k : Nat), ps = before ++ rest →
      ¬ Occurs letter (render mask rest) k v := by
    intro rest
    induction rest with
    | nil =>
      intro before k _ occurs
      rw [Occurs, render_nil, List.map_nil, List.drop_nil, List.prefix_nil] at occurs
      exact some v mem occurs
    | cons p rest ih =>
      intro before k split occurs
      rw [render_cons] at occurs
      obtain inside | later := Nat.lt_or_ge k (p.render mask).length
      · cases p with
        | raw a =>
          obtain rfl : k = 0 := Nat.lt_one_iff.mp inside
          exact h.not_matches some mem split (matches_of_starts foreign.stops occurs)
        | hidden w =>
          have short : k ≤ (mask.map letter).length := by
            rw [List.length_map]
            exact Nat.le_of_lt inside
          rw [Occurs, List.map_append] at occurs
          change v <+: (mask.map letter ++ _).drop k at occurs
          rw [List.drop_append_of_le_length short] at occurs
          refine foreign.starts.not_starts (List.drop_suffix _ _) (fun none => ?_) occurs
          have ended := List.drop_eq_nil_iff.mp none
          rw [List.length_map] at ended
          exact absurd inside (Nat.not_lt.mpr ended)
      · obtain ⟨l, rfl⟩ := Nat.exists_eq_add_of_le later
        exact ih (before ++ [p]) l (by rw [split, List.append_assoc]; rfl)
          (occurs_append_right.mp occurs)
  exact suffixes ps [] k rfl

/-- What is left does not depend on the order of the patterns. -/
theorem Hidden.unique (h : Hidden letter patterns patterns text ps)
    (h' : Hidden letter patterns' patterns' text qs) (same : ∀ v, v ∈ patterns ↔ v ∈ patterns') :
    ps = qs := by
  have half : ∀ {patterns patterns' : List (List κ)} {ps qs : List (Piece α)},
      Hidden letter patterns patterns text ps → Hidden letter patterns' patterns' text qs →
      (∀ v, v ∈ patterns ↔ v ∈ patterns') → ∀ i w, At ps i (.hidden w) → At qs i (.hidden w) := by
    intro patterns patterns' ps qs h h' same i w there
    obtain ⟨mem, maximal⟩ := h.sound i w there
    obtain ⟨w', there', hw⟩ := h'.complete i _ ((same _).mp mem) (maximal.congr same)
    have lengths : w'.length = w.length := by
      rw [← @List.length_map _ _ w' letter, hw, List.length_map]
    have one := there.source_drop
    have other := there'.source_drop
    rw [h.source_eq] at one
    rw [h'.source_eq] at other
    obtain rfl : w' = w := by
      calc w' = (text.drop i).take w'.length := List.prefix_iff_eq_take.mp other
        _ = (text.drop i).take w.length := by rw [lengths]
        _ = w := (List.prefix_iff_eq_take.mp one).symm
    exact there'
  refine pieces_ext (h.source_eq.trans h'.source_eq.symm) h.full h'.full fun i w => ?_
  exact ⟨half h h' same i w, half h' h (fun v => (same v).symm) i w⟩

/-- Where no pattern occurs, nothing happens. -/
theorem replace_of_not_occurs [DecidableEq κ] (none : ∀ i, ¬ Occurs letter text i v) :
    replace letter v mask text = text := by
  induction text with
  | nil => rfl
  | cons a text ih =>
    rw [replace_miss (none 0), ih fun i occurs => none (i + 1) occurs]

theorem replaceAll_of_not_occurs [DecidableEq κ] (none : ∀ v ∈ patterns, ∀ i, ¬ Occurs letter text i v) :
    replaceAll letter mask patterns text = text := by
  induction patterns with
  | nil => rfl
  | cons v patterns ih =>
    rw [replaceAll_cons, replace_of_not_occurs (none v List.mem_cons_self)]
    exact ih fun u mem => none u (List.mem_cons_of_mem _ mem)

end Left

end RoLauncher.Text
