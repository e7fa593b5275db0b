import RoLauncher.Runtime.Bytes

/-!
# Canonical encoding (`runtime/encode.rs`)

The bytes under a fingerprint: every value starts with its tag, and what has
no fixed length is preceded by its length, as 32 bits. A value can therefore be
cut off the front of any text that starts with its encoding
(`encode_cancel`), as long as no length overflows.
-/

namespace RoLauncher.Runtime

inductive CanonicalValue where
  | null
  | bool (value : Bool)
  | u64 (value : UInt64)
  | string (value : String)
  | bytes (value : List UInt8)
  | sequence (values : List CanonicalValue)
  | record (fields : List (String × CanonicalValue))
  | enum (variant : String) (payload : CanonicalValue)

namespace CanonicalValue

/-- `(len as u32).to_be_bytes()`. -/
def lengthBytes (length : Nat) : List UInt8 := beBytes 4 length

def encodeString (value : String) : List UInt8 :=
  0x04 :: (lengthBytes (utf8 value).length ++ utf8 value)

mutual

def encode : CanonicalValue → List UInt8
  | .null => [0x00]
  | .bool false => [0x01]
  | .bool true => [0x02]
  | .u64 value => 0x03 :: beBytes 8 value.toNat
  | .string value => encodeString value
  | .bytes value => 0x05 :: (lengthBytes value.length ++ value)
  | .sequence values => 0x06 :: (lengthBytes values.length ++ encodeValues values)
  | .record fields => 0x07 :: (lengthBytes fields.length ++ encodeFields fields)
  | .enum variant payload => 0x08 :: (encodeString variant ++ payload.encode)

def encodeValues : List CanonicalValue → List UInt8
  | [] => []
  | value :: values => value.encode ++ encodeValues values

def encodeFields : List (String × CanonicalValue) → List UInt8
  | [] => []
  | (fieldId, value) :: fields => encodeString fieldId ++ (value.encode ++ encodeFields fields)

end

/-- `CanonicalValue::record`: a stable sort by the bytes of the field names. -/
def ofFields (fields : List (String × CanonicalValue)) : CanonicalValue :=
  .record (fields.mergeSort fun left right => utf8 left.1 ≤ utf8 right.1)

def emptyRecord : CanonicalValue := .record []

/-! ## Sizes -/

/-- Fewer items than a 32-bit length can count. -/
def Short (length : Nat) : Prop := length < 2 ^ 32

instance (length : Nat) : Decidable (Short length) := inferInstanceAs (Decidable (length < 2 ^ 32))

mutual

/-- Every string, list and record of the value is short. -/
def Small : CanonicalValue → Prop
  | .null | .bool _ | .u64 _ => True
  | .string value => Short (utf8 value).length
  | .bytes value => Short value.length
  | .sequence values => Short values.length ∧ SmallValues values
  | .record fields => Short fields.length ∧ SmallFields fields
  | .enum variant payload => Short (utf8 variant).length ∧ payload.Small

def SmallValues : List CanonicalValue → Prop
  | [] => True
  | value :: values => value.Small ∧ SmallValues values

def SmallFields : List (String × CanonicalValue) → Prop
  | [] => True
  | (fieldId, value) :: fields =>
    Short (utf8 fieldId).length ∧ value.Small ∧ SmallFields fields

end

/-! ## Cutting values off -/

/-- A length that does not overflow is read back. -/
theorem lengthBytes_cancel {m n : Nat} {u v : List UInt8} (hm : Short m) (hn : Short n)
    (h : lengthBytes m ++ u = lengthBytes n ++ v) : m = n ∧ u = v := by
  obtain ⟨same, rest⟩ := append_cancel h (by rw [lengthBytes, lengthBytes, length_beBytes,
    length_beBytes])
  exact ⟨beBytes_injective hm hn same, rest⟩

/-- Bytes behind their length are read back. -/
theorem counted_cancel {s t u v : List UInt8} (hs : Short s.length) (ht : Short t.length)
    (h : lengthBytes s.length ++ s ++ u = lengthBytes t.length ++ t ++ v) : s = t ∧ u = v := by
  rw [List.append_assoc, List.append_assoc] at h
  obtain ⟨length, rest⟩ := lengthBytes_cancel hs ht h
  exact append_cancel rest length

theorem encodeString_cancel {s t : String} {u v : List UInt8} (hs : Short (utf8 s).length)
    (ht : Short (utf8 t).length) (h : encodeString s ++ u = encodeString t ++ v) :
    s = t ∧ u = v := by
  rw [encodeString, encodeString, List.cons_append, List.cons_append] at h
  obtain ⟨same, rest⟩ := counted_cancel hs ht (List.cons.inj h).2
  exact ⟨utf8_injective same, rest⟩

mutual

/-- **The encoding marks its own end**: a text that starts with the encodings of
two small values starts with the same one. -/
theorem encode_cancel : ∀ (a b : CanonicalValue) (u v : List UInt8), a.Small → b.Small →
    a.encode ++ u = b.encode ++ v → a = b ∧ u = v
  | .null, b, u, v, _, _, h => by
    cases b with
    | null => exact ⟨rfl, (List.cons.inj h).2⟩
    | bool value => cases value <;> cases h
    | _ => cases h
  | .bool x, b, u, v, _, _, h => by
    cases b with
    | bool y =>
      cases x <;> cases y
      · exact ⟨rfl, (List.cons.inj h).2⟩
      · cases h
      · cases h
      · exact ⟨rfl, (List.cons.inj h).2⟩
    | _ => cases x <;> cases h
  | .u64 x, b, u, v, _, _, h => by
    cases b with
    | u64 y =>
      rw [encode, encode, List.cons_append, List.cons_append] at h
      obtain ⟨same, rest⟩ := append_cancel (List.cons.inj h).2 (by simp)
      exact ⟨congrArg _ (UInt64.toNat_inj.mp (beBytes_injective x.toNat_lt y.toNat_lt same)), rest⟩
    | bool value => cases value <;> cases h
    | _ => cases h
  | .string x, b, u, v, hx, hb, h => by
    cases b with
    | string y =>
      rw [encode, encode] at h
      obtain ⟨rfl, rest⟩ := encodeString_cancel hx hb h
      exact ⟨rfl, rest⟩
    | bool value => cases value <;> cases h
    | _ => cases h
  | .bytes x, b, u, v, hx, hb, h => by
    cases b with
    | bytes y =>
      rw [encode, encode, List.cons_append, List.cons_append] at h
      obtain ⟨rfl, rest⟩ := counted_cancel hx hb (List.cons.inj h).2
      exact ⟨rfl, rest⟩
    | bool value => cases value <;> cases h
    | _ => cases h
  | .sequence xs, b, u, v, hx, hb, h => by
    cases b with
    | sequence ys =>
      rw [encode, encode, List.cons_append, List.cons_append, List.append_assoc,
        List.append_assoc] at h
      obtain ⟨length, rest⟩ := lengthBytes_cancel hx.1 hb.1 (List.cons.inj h).2
      obtain ⟨rfl, tail⟩ := encodeValues_cancel xs ys u v length hx.2 hb.2 rest
      exact ⟨rfl, tail⟩
    | bool value => cases value <;> cases h
    | _ => cases h
  | .record xs, b, u, v, hx, hb, h => by
    cases b with
    | record ys =>
      rw [encode, encode, List.cons_append, List.cons_append, List.append_assoc,
        List.append_assoc] at h
      obtain ⟨length, rest⟩ := lengthBytes_cancel hx.1 hb.1 (List.cons.inj h).2
      obtain ⟨rfl, tail⟩ := encodeFields_cancel xs ys u v length hx.2 hb.2 rest
      exact ⟨rfl, tail⟩
    | bool value => cases value <;> cases h
    | _ => cases h
  | .enum x p, b, u, v, hx, hb, h => by
    cases b with
    | enum y q =>
      rw [encode, encode, List.cons_append, List.cons_append, List.append_assoc,
        List.append_assoc] at h
      obtain ⟨rfl, rest⟩ := encodeString_cancel hx.1 hb.1 (List.cons.inj h).2
      obtain ⟨rfl, tail⟩ := encode_cancel p q u v hx.2 hb.2 rest
      exact ⟨rfl, tail⟩
    | bool value => cases value <;> cases h
    | _ => cases h

theorem encodeValues_cancel : ∀ (xs ys : List CanonicalValue) (u v : List UInt8),
    xs.length = ys.length → SmallValues xs → SmallValues ys →
    encodeValues xs ++ u = encodeValues ys ++ v → xs = ys ∧ u = v
  | [], [], _, _, _, _, _, h => ⟨rfl, h⟩
  | [], _ :: _, _, _, length, _, _, _ => by cases length
  | _ :: _, [], _, _, length, _, _, _ => by cases length
  | x :: xs, y :: ys, u, v, length, hx, hy, h => by
    rw [encodeValues, encodeValues, List.append_assoc, List.append_assoc] at h
    obtain ⟨rfl, rest⟩ := encode_cancel x y _ _ hx.1 hy.1 h
    obtain ⟨rfl, tail⟩ := encodeValues_cancel xs ys u v (Nat.succ.inj length) hx.2 hy.2 rest
    exact ⟨rfl, tail⟩

theorem encodeFields_cancel : ∀ (xs ys : List (String × CanonicalValue)) (u v : List UInt8),
    xs.length = ys.length → SmallFields xs → SmallFields ys →
    encodeFields xs ++ u = encodeFields ys ++ v → xs = ys ∧ u = v
  | [], [], _, _, _, _, _, h => ⟨rfl, h⟩
  | [], _ :: _, _, _, length, _, _, _ => by cases length
  | _ :: _, [], _, _, length, _, _, _ => by cases length
  | (k, x) :: xs, (l, y) :: ys, u, v, length, hx, hy, h => by
    rw [encodeFields, encodeFields, List.append_assoc, List.append_assoc, List.append_assoc,
      List.append_assoc] at h
    obtain ⟨rfl, named⟩ := encodeString_cancel hx.1 hy.1 h
    obtain ⟨rfl, rest⟩ := encode_cancel x y _ _ hx.2.1 hy.2.1 named
    obtain ⟨rfl, tail⟩ := encodeFields_cancel xs ys u v (Nat.succ.inj length) hx.2.2 hy.2.2 rest
    exact ⟨rfl, tail⟩

end

/-! ## Records -/

theorem byName_trans (a b c : String × CanonicalValue) :
    decide (utf8 a.1 ≤ utf8 b.1) = true → decide (utf8 b.1 ≤ utf8 c.1) = true →
      decide (utf8 a.1 ≤ utf8 c.1) = true := by
  simp only [decide_eq_true_eq]
  exact List.le_trans

theorem byName_total (a b : String × CanonicalValue) :
    (decide (utf8 a.1 ≤ utf8 b.1) || decide (utf8 b.1 ≤ utf8 a.1)) = true := by
  rw [Bool.or_eq_true, decide_eq_true_eq, decide_eq_true_eq]
  exact List.le_total _ _

/-- Fields with distinct names have one sorted order. -/
theorem mergeSort_eq_of_perm {fields fields' : List (String × CanonicalValue)}
    (distinct : (fields.map Prod.fst).Nodup) (perm : fields.Perm fields') :
    (fields.mergeSort fun left right => utf8 left.1 ≤ utf8 right.1) =
      fields'.mergeSort fun left right => utf8 left.1 ≤ utf8 right.1 := by
  refine List.Perm.eq_of_pairwise ?_ (List.pairwise_mergeSort byName_trans byName_total fields)
    (List.pairwise_mergeSort byName_trans byName_total fields')
    ((List.mergeSort_perm _ _).trans (perm.trans (List.mergeSort_perm _ _).symm))
  intro a b ha hb hab hba
  rw [decide_eq_true_eq] at hab hba
  have name : a.1 = b.1 := utf8_injective (List.le_antisymm hab hba)
  have ha' := (List.mergeSort_perm fields _).subset ha
  have hb' := perm.symm.subset ((List.mergeSort_perm fields' _).subset hb)
  exact List.inj_on_of_nodup_map distinct ha' hb' name

/-- Rearranged fields that have the same names in the same order are the same. -/
theorem eq_of_perm_of_names {fields fields' : List (String × CanonicalValue)}
    (distinct : (fields.map Prod.fst).Nodup)
    (names : fields.map Prod.fst = fields'.map Prod.fst) (perm : fields.Perm fields') :
    fields = fields' := by
  induction fields generalizing fields' with
  | nil => exact (List.nil_perm.mp perm).symm
  | cons first rest ih =>
    cases fields' with
    | nil => cases names
    | cons first' rest' =>
      rw [List.map_cons, List.map_cons] at names
      obtain ⟨name, others⟩ := List.cons.inj names
      rw [List.map_cons, List.nodup_cons] at distinct
      have head : first = first' := by
        obtain same | mem := List.mem_cons.mp (perm.subset List.mem_cons_self)
        · exact same
        · have again : first.1 ∈ rest.map Prod.fst := by
            rw [others]
            exact List.mem_map_of_mem mem
          exact absurd again distinct.1
      rw [head] at perm ⊢
      rw [ih distinct.2 others perm.cons_inv]

/-- Records of the same names are equal field by field. -/
theorem ofFields_inj {fields fields' : List (String × CanonicalValue)}
    (same : ofFields fields = ofFields fields') (distinct : (fields.map Prod.fst).Nodup)
    (names : fields.map Prod.fst = fields'.map Prod.fst) : fields = fields' := by
  have sorted := CanonicalValue.record.inj same
  have perm : fields.Perm fields' := by
    have left := (List.mergeSort_perm fields fun left right => utf8 left.1 ≤ utf8 right.1).symm
    rw [sorted] at left
    exact left.trans (List.mergeSort_perm _ _)
  exact eq_of_perm_of_names distinct names perm

/-- Fields named in ascending order stay as they are. -/
theorem ofFields_of_ascending {fields : List (String × CanonicalValue)}
    (names : List String) (named : fields.map Prod.fst = names)
    (ascending : names.Pairwise fun left right => utf8 left ≤ utf8 right) :
    ofFields fields = .record fields := by
  rw [← named, List.pairwise_map] at ascending
  unfold ofFields
  rw [List.mergeSort_of_pairwise (ascending.imp fun h => decide_eq_true h)]

theorem smallFields_iff {fields : List (String × CanonicalValue)} :
    SmallFields fields ↔ ∀ field ∈ fields, Short (utf8 field.1).length ∧ field.2.Small := by
  induction fields with
  | nil => exact ⟨fun _ _ mem => absurd mem List.not_mem_nil, fun _ => trivial⟩
  | cons field rest ih =>
    rw [List.forall_mem_cons, ← ih, SmallFields, and_assoc]

theorem small_ofFields {fields : List (String × CanonicalValue)} (length : Short fields.length)
    (small : SmallFields fields) : (ofFields fields).Small := by
  constructor
  · rw [List.length_mergeSort]
    exact length
  · rw [smallFields_iff] at small ⊢
    intro field mem
    exact small field ((List.mergeSort_perm _ _).subset mem)

/-- **The encoding is injective and prefix free** on small values, and the
encoding of a record of distinctly named fields does not depend on their order. -/
theorem canonical_encoding :
    (∀ a b : CanonicalValue, a.Small → b.Small →
      (∀ rest, rest ≠ [] → b.encode ≠ a.encode ++ rest) ∧ (a.encode = b.encode → a = b)) ∧
    ∀ fields fields' : List (String × CanonicalValue), (fields.map Prod.fst).Nodup →
      fields.Perm fields' → (ofFields fields).encode = (ofFields fields').encode := by
  refine ⟨fun a b ha hb => ⟨fun rest nonempty h => ?_, fun h => ?_⟩, fun fields fields' distinct perm => ?_⟩
  · have cut := encode_cancel a b rest [] ha hb (by rw [List.append_nil, h])
    exact nonempty cut.2
  · exact (encode_cancel a b [] [] ha hb (by rw [h])).1
  · rw [ofFields, ofFields, mergeSort_eq_of_perm distinct perm]

/-- Two fields in either order. -/
theorem canonical_encoding_two_fields :
    (ofFields [("flag", .bool true), ("count", .u64 1)]).encode =
      (ofFields [("count", .u64 1), ("flag", .bool true)]).encode ∧
    (string "a").encode ≠ (string "b").encode  := by
  have small : ∀ {text : String}, (utf8 text).length < 2 ^ 32 → (string text).Small := fun h => h
  exact ⟨canonical_encoding.2 _ _ (by decide) (.swap _ _ _), fun same => absurd ((canonical_encoding.1 (string "a") (string "b") (small (by decide)) (small (by decide))).2 same)
      (by simp)⟩

end CanonicalValue

end RoLauncher.Runtime
