/-
# AdManager.Wire.FieldsRefine — what each kind of field writes is what it reads.

One lemma for each kind: `…_emits` says that what is written for a record is a sequence of occurrences of the
field, which merge it into any other record; `…_length` how many bytes are written; and `…_read` what a
successful read has done. The bounds are those of the library: lengths are below `2^31`.

A `Codec` is a message type whose fields have these properties. Its parser undoes its serializer, and more:
parsing what was serialized onto any message merges it.
-/
import AdManager.Wire.Fields

namespace AdManager.Wire

open AdManager.Lib

/-! ## Values -/

theorem readVarint32_writeInt32NoTag (v : Int32) (rest : Bytes) :
    readVarint32 (writeInt32NoTag v ++ rest) = some (UInt32.ofNat v.toInt64.toUInt64.toNat, rest) :=
  Message.readVarint32_encode v.toInt64.toUInt64.toNat_lt rest

theorem writeInt32NoTag_ne_nil (v : Int32) : writeInt32NoTag v ≠ [] :=
  Varint.encode_ne_nil v.toInt64.toUInt64.toNat

theorem writeInt32NoTag_length (v : Int32) : (writeInt32NoTag v).length = Message.int32Size v := by
  rw [writeInt32NoTag, Varint.encode_length, Message.int32Size, signExtend_toNat]
  by_cases hv : v < 0
  · rw [if_pos hv, if_pos hv]
    exact size_ten (by omega)
  · rw [if_neg hv, if_neg hv]

theorem readString_writeLengthDelimited {b : Bytes} (h : b.length < 2 ^ 31) (rest : Bytes) :
    readString (writeLengthDelimited b ++ rest) = some (b, rest) :=
  Message.readString_encode h rest

theorem writeLengthDelimited_length (b : Bytes) :
    (writeLengthDelimited b).length = Message.stringSize b := by
  rw [writeLengthDelimited, List.length_append, Varint.encode_length, Message.stringSize]

theorem length_le_writeLengthDelimited (b : Bytes) : b.length ≤ (writeLengthDelimited b).length := by
  rw [writeLengthDelimited, List.length_append]
  omega

/-- Packed values are read back. -/
theorem readInt32s_flatMap (vs : List Int32) :
    ∀ k, (vs.flatMap writeInt32NoTag).length ≤ k → readInt32s k (vs.flatMap writeInt32NoTag) = (vs, true) := by
  induction vs with
  | nil =>
      intro k _
      cases k <;> rfl
  | cons v vs ih =>
      intro k hk
      have hpos : 0 < (writeInt32NoTag v).length := List.length_pos_iff.mpr (writeInt32NoTag_ne_nil v)
      rw [List.flatMap_cons, List.length_append] at hk
      obtain ⟨k, rfl⟩ : ∃ n, k = n + 1 := ⟨k - 1, by omega⟩
      have hread := readVarint32_writeInt32NoTag v (vs.flatMap writeInt32NoTag)
      rw [List.flatMap_cons]
      obtain ⟨b, bs, hb⟩ := List.exists_cons_of_ne_nil (writeInt32NoTag_ne_nil v)
      rw [hb, List.cons_append] at hread ⊢
      simp only [readInt32s, hread, ih k (by omega), toInt32_signExtend]

theorem int32s_length (vs : List Int32) :
    (vs.flatMap writeInt32NoTag).length = (vs.map Message.int32Size).sum := by
  induction vs with
  | nil => rfl
  | cons v vs ih =>
      rw [List.flatMap_cons, List.length_append, writeInt32NoTag_length, ih, List.map_cons,
        List.sum_cons]

theorem int32Size_ofNat {n : Nat} (h : n < 2 ^ 31) :
    Message.int32Size (Int32.ofNat n) = Varint.size n := by
  have hpos : ¬ Int32.ofNat n < 0 := by
    rw [Int32.lt_iff_toInt_lt, Int32.toInt_ofNat_of_lt h]
    exact Int.not_lt.mpr (Int.natCast_nonneg n)
  have hn : (Int32.ofNat n).toUInt32.toNat = n := by
    show (UInt32.ofNat n).toNat = n
    rw [UInt32.toNat_ofNat']
    omega
  rw [Message.int32Size, if_neg hpos, hn]

/-- Elements behind a tag of `k` bytes. -/
theorem tagged_length {A : Type} {t : UInt32} {k : Nat} (ht : (writeTag t).length = k)
    {payload : A → Bytes} {size : A → Nat} (as : List A)
    (hsize : ∀ a ∈ as, (payload a).length = size a) :
    (as.flatMap fun a => writeTag t ++ payload a).length = k * as.length + (as.map size).sum := by
  induction as with
  | nil => rfl
  | cons a as ih =>
      have hrest := ih fun a' ha' => hsize a' (List.mem_cons_of_mem _ ha')
      rw [List.flatMap_cons, List.length_append, hrest, List.length_append, ht,
        hsize a List.mem_cons_self, List.map_cons, List.sum_cons, List.length_cons, Nat.mul_succ]
      omega

/-! ## Sizes -/

section Sizes

variable {t : UInt32} {k : Nat} (ht : (writeTag t).length = k)
include ht

theorem putInt32_length (v : Int32) : (putInt32 t v).length = sizeInt32 k v := by
  unfold putInt32 sizeInt32
  split
  · rw [List.length_append, ht, writeInt32NoTag_length]
  · rfl

theorem putBool_length (v : Bool) : (putBool t v).length = sizeBool k v := by
  unfold putBool sizeBool
  split
  · rw [List.length_append, ht, List.length_singleton]
  · rfl

theorem putBytes_length (b : Bytes) : (putBytes t b).length = sizeBytes k b := by
  unfold putBytes sizeBytes
  split
  · rw [List.length_append, ht, writeLengthDelimited_length]
  · rfl

theorem putStrings_length (bs : List Bytes) : (putStrings t bs).length = sizeStrings k bs :=
  tagged_length ht bs fun b _ => writeLengthDelimited_length b

theorem putInt32s_length (vs : List Int32) (hlen : (putInt32s t vs).length < 2 ^ 31) :
    (putInt32s t vs).length = sizeInt32s k vs := by
  cases vs with
  | nil => rfl
  | cons v vs =>
      have hdata := int32s_length (v :: vs)
      have hpos : 0 < (writeInt32NoTag v).length := List.length_pos_iff.mpr (writeInt32NoTag_ne_nil v)
      have hle := length_le_writeLengthDelimited ((v :: vs).flatMap writeInt32NoTag)
      have hsome : 0 < ((v :: vs).map Message.int32Size).sum := by
        rw [← hdata, List.flatMap_cons, List.length_append]
        omega
      rw [putInt32s, if_pos (by simp), List.length_append, ht] at hlen ⊢
      rw [sizeInt32s, if_pos hsome, int32Size_ofNat (by omega), writeLengthDelimited_length,
        Message.stringSize, hdata, Nat.add_assoc]

theorem putMessages_length {S : Type} {bytes : S → Bytes} {size : S → Nat} (ss : List S)
    (hsize : ∀ s ∈ ss, (bytes s).length = size s) :
    (putMessages t bytes ss).length = sizeMessages k size ss := by
  apply tagged_length ht ss
  intro s hs
  rw [writeLengthDelimited_length, Message.stringSize, hsize s hs]

end Sizes

/-! ## What the fields emit -/

section Emits

variable {R S : Type} {rt : Runtime} {t : UInt32} {s : R}

/-- A field that is there in one occurrence or not at all. -/
theorem emits_optional {A : Type} {f : Field R UInt32 UInt8} {l : Lens R A} {c : Prop} [Decidable c]
    {v : A} {payload : Bytes} (ht : t ∈ f.tags) (m : R)
    (hread : c → ∀ rest, f.read t m (payload ++ rest) = (l.set m v, some rest)) :
    f.Emits tags (if c then writeTag t ++ payload else []) m (l.set m (if c then v else l.get m)) := by
  by_cases hc : c
  · rw [if_pos hc, if_pos hc]
    exact .single (T := tags) ht (hread hc)
  · rw [if_neg hc, if_neg hc, l.set_get]
    exact .nil m

theorem int32Field_emits (l : Lens R Int32) (m : R) :
    (int32Field t l).Emits tags ((int32Field t l).write s) m ((int32Field t l).merge s m) := by
  apply emits_optional (List.mem_singleton_self t) m
  intro _ rest
  simp only [int32Field, readVarint32_writeInt32NoTag, toInt32_signExtend]

theorem boolField_emits (l : Lens R Bool) (m : R) :
    (boolField t l).Emits tags ((boolField t l).write s) m ((boolField t l).merge s m) := by
  apply emits_optional (List.mem_singleton_self t) m
  intro htrue rest
  have hread : readVarint64 ([1] ++ rest) = some (1, rest) := Message.readVarint64_encode 1 rest
  simp only [boolField, hread, htrue]
  rfl

/-- Bytes that are written are within what is written. -/
theorem length_le_putBytes (b : Bytes) : b.length ≤ (putBytes t b).length := by
  have hle := length_le_writeLengthDelimited b
  unfold putBytes
  split
  · rw [List.length_append]
    omega
  · omega

theorem stringField_emits (l : Lens R Bytes) (hutf8 : isValidUtf8 (l.get s) = true)
    (hlen : ((stringField rt t l).write s).length < 2 ^ 31) (m : R) :
    (stringField rt t l).Emits tags ((stringField rt t l).write s) m ((stringField rt t l).merge s m) := by
  apply emits_optional (List.mem_singleton_self t) m
  intro _ rest
  have hlen : (l.get s).length < 2 ^ 31 := Nat.lt_of_le_of_lt (length_le_putBytes (l.get s)) hlen
  simp only [stringField, readString_writeLengthDelimited hlen, hutf8, if_true]

theorem bytesField_emits (l : Lens R Bytes) (hlen : ((bytesField rt t l).write s).length < 2 ^ 31)
    (m : R) :
    (bytesField rt t l).Emits tags ((bytesField rt t l).write s) m ((bytesField rt t l).merge s m) := by
  apply emits_optional (List.mem_singleton_self t) m
  intro _ rest
  have hlen : (l.get s).length < 2 ^ 31 := Nat.lt_of_le_of_lt (length_le_putBytes (l.get s)) hlen
  simp only [bytesField, readString_writeLengthDelimited hlen]

/-- A list that is written element by element, each added when it is read. -/
theorem emits_flatMap {A : Type} {f : Field R UInt32 UInt8} {l : Lens R (List A)} {payload : A → Bytes}
    (ht : t ∈ f.tags) (as : List A)
    (hread : ∀ a ∈ as, ∀ m rest, f.read t m (payload a ++ rest) = (l.add m [a], some rest)) :
    ∀ m, f.Emits tags (as.flatMap fun a => writeTag t ++ payload a) m (l.add m as) := by
  induction as with
  | nil =>
      intro m
      rw [l.add_nil]
      exact .nil m
  | cons a as ih =>
      intro m
      have hrest := ih (fun a' ha' => hread a' (List.mem_cons_of_mem _ ha')) (l.add m [a])
      rw [l.add_add, List.singleton_append] at hrest
      rw [List.flatMap_cons, List.append_assoc]
      exact .cons (T := tags) ht (hread a List.mem_cons_self m) hrest

/-- An element that is written is within what is written. -/
theorem length_le_tagged {A : Type} (bytes : A → Bytes) {a : A} {as : List A} (ha : a ∈ as) :
    (bytes a).length ≤ (as.flatMap fun a => writeTag t ++ writeLengthDelimited (bytes a)).length := by
  induction as with
  | nil => exact absurd ha (by simp)
  | cons a' as ih =>
      rw [List.flatMap_cons, List.length_append, List.length_append]
      rcases List.mem_cons.mp ha with rfl | hmem
      · have hle := length_le_writeLengthDelimited (bytes a)
        omega
      · have hle := ih hmem
        omega

theorem stringsField_emits (l : Lens R (List Bytes)) (hutf8 : ∀ b ∈ l.get s, isValidUtf8 b = true)
    (hlen : ((stringsField rt t l).write s).length < 2 ^ 31) (m : R) :
    (stringsField rt t l).Emits tags ((stringsField rt t l).write s) m
      ((stringsField rt t l).merge s m) := by
  apply emits_flatMap (List.mem_singleton_self t)
  intro b hb m rest
  have hlen : b.length < 2 ^ 31 := Nat.lt_of_le_of_lt (length_le_tagged id hb) hlen
  simp only [stringsField, readString_writeLengthDelimited hlen, hutf8 b hb, if_true]

theorem int32sField_emits {u : UInt32} (l : Lens R (List Int32))
    (hlen : ((int32sField rt t u l).write s).length < 2 ^ 31) (m : R) :
    (int32sField rt t u l).Emits tags ((int32sField rt t u l).write s) m
      ((int32sField rt t u l).merge s m) := by
  cases hvs : l.get s with
  | nil =>
      show Field.Emits tags _ (putInt32s t (l.get s)) m (l.add m (l.get s))
      rw [hvs, l.add_nil]
      exact .nil m
  | cons v vs =>
      show Field.Emits tags _ (putInt32s t (l.get s)) m (l.add m (l.get s))
      replace hlen : (putInt32s t (l.get s)).length < 2 ^ 31 := hlen
      rw [hvs, putInt32s, if_pos (by simp)] at hlen ⊢
      have hdata : ((v :: vs).flatMap writeInt32NoTag).length < 2 ^ 31 := by
        have hle := length_le_writeLengthDelimited ((v :: vs).flatMap writeInt32NoTag)
        rw [List.length_append] at hlen
        omega
      apply Field.Emits.single (T := tags) (t := t) (by simp [int32sField])
      intro rest
      have hsize : readVarintSizeAsInt
          (writeLengthDelimited ((v :: vs).flatMap writeInt32NoTag) ++ rest) =
            some (((v :: vs).flatMap writeInt32NoTag).length,
              (v :: vs).flatMap writeInt32NoTag ++ rest) := by
        rw [readVarintSizeAsInt, writeLengthDelimited, List.append_assoc,
          Varint.decode_encode (by omega), Option.bind_some, if_pos hdata]
      have hall := readInt32s_flatMap (v :: vs) ((v :: vs).flatMap writeInt32NoTag ++ rest).length
        (by rw [List.length_append]; omega)
      simp only [int32sField, if_true, readPackedPrimitive, hsize, List.take_left, List.drop_left, hall]

theorem messagesField_emits (l : Lens R (List S)) {sub : Bytes → S × Bool} {bytes : S → Bytes}
    (hsub : ∀ a ∈ l.get s, (bytes a).length < 2 ^ 31 → sub (bytes a) = (a, true))
    (hlen : ((messagesField rt t l sub bytes).write s).length < 2 ^ 31) (m : R) :
    (messagesField rt t l sub bytes).Emits tags ((messagesField rt t l sub bytes).write s) m
      ((messagesField rt t l sub bytes).merge s m) := by
  apply emits_flatMap (List.mem_singleton_self t)
  intro a ha m rest
  have hlen : (bytes a).length < 2 ^ 31 := Nat.lt_of_le_of_lt (length_le_tagged bytes ha) hlen
  have hn : (UInt32.ofNat (bytes a).length).toNat = (bytes a).length := by
    rw [UInt32.toNat_ofNat']
    omega
  have hread : readVarint32 (writeLengthDelimited (bytes a) ++ rest) =
      some (UInt32.ofNat (bytes a).length, bytes a ++ rest) := by
    rw [writeLengthDelimited, List.append_assoc, Message.readVarint32_encode (by omega)]
  simp only [messagesField, readMessage, hread, hn, List.take_left, List.drop_left, hsub a ha hlen,
    if_true]

end Emits

/-! ## What the fields keep -/

section Keeps

variable {R S : Type} {rt : Runtime} {t u : UInt32} {r r' : R} {input rest : Bytes}

theorem int32Field_read {l : Lens R Int32} (h : (int32Field t l).read u r input = (r', some rest)) :
    ∃ v, r' = l.set r v := by
  simp only [int32Field] at h
  split at h
  · exact absurd (Prod.mk.inj h).2 (by simp)
  · exact ⟨_, (Prod.mk.inj h).1.symm⟩

theorem boolField_read {l : Lens R Bool} (h : (boolField t l).read u r input = (r', some rest)) :
    ∃ v, r' = l.set r v := by
  simp only [boolField] at h
  split at h
  · exact absurd (Prod.mk.inj h).2 (by simp)
  · exact ⟨_, (Prod.mk.inj h).1.symm⟩

theorem bytesField_read {l : Lens R Bytes} (h : (bytesField rt t l).read u r input = (r', some rest)) :
    ∃ v, r' = l.set r v := by
  simp only [bytesField] at h
  split at h
  · exact absurd (Prod.mk.inj h).2 (by simp)
  · exact ⟨_, (Prod.mk.inj h).1.symm⟩

theorem stringField_read {l : Lens R Bytes}
    (h : (stringField rt t l).read u r input = (r', some rest)) :
    ∃ v, isValidUtf8 v = true ∧ r' = l.set r v := by
  simp only [stringField] at h
  split at h
  · exact absurd (Prod.mk.inj h).2 (by simp)
  next p hp =>
      obtain ⟨hset, hrest⟩ := Prod.mk.inj h
      exact ⟨p.1, (Option.ite_none_right_eq_some.mp hrest).1, hset.symm⟩

theorem stringsField_read {l : Lens R (List Bytes)}
    (h : (stringsField rt t l).read u r input = (r', some rest)) :
    ∃ v, isValidUtf8 v = true ∧ r' = l.add r [v] := by
  simp only [stringsField] at h
  split at h
  · exact absurd (Prod.mk.inj h).2 (by simp)
  next p hp =>
      obtain ⟨hadd, hrest⟩ := Prod.mk.inj h
      exact ⟨p.1, (Option.ite_none_right_eq_some.mp hrest).1, hadd.symm⟩

theorem readReserved_read {packed : UInt32} {l : Lens R (List Int32)} (k : Nat) {r : R} {input : Bytes}
    (h : readReserved packed l k r input = (r', some rest)) : ∃ vs, r' = l.add r vs := by
  induction k generalizing r input with
  | zero => exact ⟨[], by rw [l.add_nil]; exact (Prod.mk.inj h).1.symm⟩
  | succ k ih =>
      simp only [readReserved] at h
      split at h
      · exact ⟨[], by rw [l.add_nil]; exact (Prod.mk.inj h).1.symm⟩
      · split at h
        · exact absurd (Prod.mk.inj h).2 (by simp)
        · obtain ⟨vs, hvs⟩ := ih h
          exact ⟨_, by rw [hvs, l.add_add]⟩

theorem int32sField_read {v : UInt32} {l : Lens R (List Int32)}
    (h : (int32sField rt t u l).read v r input = (r', some rest)) : ∃ vs, r' = l.add r vs := by
  simp only [int32sField] at h
  split at h
  · unfold readPackedPrimitive at h
    split at h
    · exact absurd (Prod.mk.inj h).2 (by simp)
    · exact ⟨_, (Prod.mk.inj h).1.symm⟩
  · unfold readRepeatedPrimitive at h
    split at h
    · exact absurd (Prod.mk.inj h).2 (by simp)
    · obtain ⟨vs, hvs⟩ := readReserved_read _ h
      exact ⟨_, by rw [hvs, l.add_add]⟩

theorem messagesField_read {l : Lens R (List S)} {sub : Bytes → S × Bool} {bytes : S → Bytes}
    (h : (messagesField rt t l sub bytes).read u r input = (r', some rest)) :
    ∃ part a, sub part = (a, true) ∧ r' = l.add r [a] := by
  simp only [messagesField, readMessage] at h
  split at h
  · obtain ⟨hadd, hrest⟩ := Prod.mk.inj h
    obtain ⟨hok, _⟩ := Option.ite_none_right_eq_some.mp hrest
    exact ⟨_, _, Prod.ext rfl hok, hadd.symm⟩
  · obtain ⟨hadd, hrest⟩ := Prod.mk.inj h
    obtain ⟨hok, _⟩ := Option.ite_none_right_eq_some.mp hrest
    exact ⟨_, _, Prod.ext rfl hok, hadd.symm⟩

theorem unusual_read (h : unusual rt t r input = (r', some rest)) : r' = r := by
  unfold unusual at h
  split at h
  · exact absurd (Prod.mk.inj h).2 (by simp)
  · exact (Prod.mk.inj h).1.symm

end Keeps

/-! ## Messages -/

/-- What one field writes is within what the message writes. -/
theorem write_length_le {R : Type} {fields : List (Field R UInt32 UInt8)} {f : Field R UInt32 UInt8}
    (hf : f ∈ fields) (s : R) : (f.write s).length ≤ (TagLoop.writeAll fields s).length := by
  induction fields with
  | nil => exact absurd hf (by simp)
  | cons g gs ih =>
      rw [TagLoop.writeAll, List.flatMap_cons, List.length_append]
      rcases List.mem_cons.mp hf with rfl | hmem
      · omega
      · have hle := ih hmem
        rw [TagLoop.writeAll] at hle
        omega

/-- **A message type**: its fields, its default, what makes a message well formed, and that each field
writes what it reads and reads what is well formed. -/
structure Codec (R : Type) (rt : Runtime) where
  fields : List (Field R UInt32 UInt8)
  default : R
  WellFormed : R → Prop
  disjoint : TagLoop.Disjoint fields
  emits : ∀ s, WellFormed s → ∀ f ∈ fields, (f.write s).length < 2 ^ 31 →
    ∀ m, f.Emits tags (f.write s) m (f.merge s m)
  keeps : ∀ f ∈ fields, ∀ t m input r rest, WellFormed m → f.read t m input = (r, some rest) →
    WellFormed r
  default_wellFormed : WellFormed default
  merge_default : ∀ s, TagLoop.mergeAll fields s default = s

namespace Codec

variable {R : Type} {rt : Runtime} (c : Codec R rt)

/-- What is written for a message. -/
def serialize (s : R) : Bytes := TagLoop.writeAll c.fields s

/-- The message `m` with `s` merged in. -/
def mergeFrom (m s : R) : R := TagLoop.mergeAll c.fields s m

/-- Parse onto a message, to the end of the input. -/
def mergePartial (m : R) (input : Bytes) : R × Bool :=
  TagLoop.loop tags (TagLoop.dispatch c.fields (unusual rt)) input.length m input

/-- Parse a message. -/
def parse (input : Bytes) : R × Bool := c.mergePartial c.default input

variable {c} {m r s s' : R} {input rest : Bytes}

/-- A message that was written is merged, whatever comes behind it. -/
theorem reads_serialize (hwf : c.WellFormed s) (hlen : (c.serialize s).length < 2 ^ 31)
    (h : TagLoop.Reads tags (TagLoop.dispatch c.fields (unusual rt)) (c.mergeFrom m s) rest r) :
    TagLoop.Reads tags (TagLoop.dispatch c.fields (unusual rt)) m (c.serialize s ++ rest) r := by
  refine TagLoop.reads_writeAll c.disjoint ?_ h
  intro f hf
  exact c.emits s hwf f hf (Nat.lt_of_le_of_lt (write_length_le hf s) hlen)

/-- **Parsing what was serialized is `MergeFrom`.** -/
theorem mergePartial_serialize (hwf : c.WellFormed s) (hlen : (c.serialize s).length < 2 ^ 31) (m : R) :
    c.mergePartial m (c.serialize s) = (c.mergeFrom m s, true) := by
  have hreads := reads_serialize (m := m) hwf hlen TagLoop.reads_nil
  rw [List.append_nil] at hreads
  exact hreads _ (Nat.le_refl _)

/-- Joined messages are merged one after the other. -/
theorem mergePartial_append (hwf : c.WellFormed s) (hwf' : c.WellFormed s')
    (hlen : (c.serialize s).length < 2 ^ 31) (hlen' : (c.serialize s').length < 2 ^ 31) (m : R) :
    c.mergePartial m (c.serialize s ++ c.serialize s') =
      (c.mergeFrom (c.mergeFrom m s) s', true) := by
  have hlast := reads_serialize (m := c.mergeFrom m s) hwf' hlen' TagLoop.reads_nil
  rw [List.append_nil] at hlast
  exact reads_serialize hwf hlen hlast _ (Nat.le_refl _)

/-- **A serialized message is read back.** -/
theorem parse_serialize (hwf : c.WellFormed s) (hlen : (c.serialize s).length < 2 ^ 31) :
    c.parse (c.serialize s) = (s, true) := by
  rw [parse, mergePartial_serialize hwf hlen, mergeFrom, c.merge_default]

/-- Only some of the fields. -/
theorem parse_fields {gs : List (Field R UInt32 UInt8)} (hgs : ∀ g ∈ gs, g ∈ c.fields)
    (hwf : c.WellFormed s) (hlen : (c.serialize s).length < 2 ^ 31) :
    c.parse (TagLoop.writeAll gs s) = (TagLoop.mergeAll gs s c.default, true) := by
  have hreads : TagLoop.Reads tags (TagLoop.dispatch c.fields (unusual rt)) c.default
      (TagLoop.writeAll gs s ++ []) (TagLoop.mergeAll gs s c.default) :=
    TagLoop.reads_fields c.disjoint gs (fun g hg => ⟨hgs g hg, c.emits s hwf g (hgs g hg)
      (Nat.lt_of_le_of_lt (write_length_le (hgs g hg) s) hlen)⟩) TagLoop.reads_nil
  rw [List.append_nil] at hreads
  exact hreads _ (Nat.le_refl _)

theorem mergePartial_wellFormed (hm : c.WellFormed m) (h : c.mergePartial m input = (r, true)) :
    c.WellFormed r := by
  refine TagLoop.loop_keeps (P := c.WellFormed) ?_ hm h
  apply TagLoop.dispatch_keeps c.keeps
  intro t m input r rest hm hread
  rw [unusual_read hread]
  exact hm

/-- **What is accepted is well formed.** -/
theorem parse_wellFormed (h : c.parse input = (r, true)) : c.WellFormed r :=
  mergePartial_wellFormed c.default_wellFormed h

end Codec

end AdManager.Wire
