/-
# AdManager.Business.CodecRefine — what the generated codec of `AdPlayPolicy.proto` guarantees.

Each of the five messages is a `Codec`: its `string` members are UTF-8, its tags are told apart, and its fields
write what they read, by one lemma of `Wire.FieldsRefine` for each kind. A nested message uses the result about
its own type. So for each of them parsing what was serialized is `MergeFrom`, a fresh message is read back, and
what is accepted is well formed; besides, `ByteSizeLong` announces the bytes that are written.
-/
import AdManager.Business.Codec
import Mathlib.Tactic.IntervalCases

namespace AdManager.Business

open AdManager.Lib AdManager.Wire

theorem ite_ne_default {α : Type} [DecidableEq α] (v d : α) : (if v ≠ d then v else d) = v := by
  split
  · rfl
  next h => exact (not_not.mp h).symm

theorem ite_length_default (v : Bytes) : (if v.length > 0 then v else []) = v := by
  split
  · rfl
  next h => exact (List.length_eq_zero_iff.mp (by omega)).symm

theorem ite_true_default (v : Bool) : (if v then v else false) = v := by
  cases v <;> rfl

theorem forall_mem_concat {α : Type} {P : α → Prop} {as : List α} {a : α} (has : ∀ b ∈ as, P b)
    (ha : P a) : ∀ b ∈ as ++ [a], P b := by
  intro b hb
  rcases List.mem_append.mp hb with hb | hb
  · exact has b hb
  · exact List.mem_singleton.mp hb ▸ ha

theorem length_le_flatten {cs : List Bytes} {c : Bytes} {i : Nat} (h : cs[i]? = some c) :
    c.length ≤ cs.flatten.length :=
  (List.sublist_flatten_of_mem (List.mem_of_getElem? h)).length_le

/-- Tags are told apart by the list of them. -/
theorem disjoint_of_tags {R : Type} {fields : List (Field R UInt32 UInt8)}
    (h : (fields.map Field.tags).flatten.Nodup) : TagLoop.Disjoint fields :=
  (List.pairwise_map.mp (List.nodup_flatten.mp h).2).imp fun hdisjoint _ ht ht' => hdisjoint ht ht'

variable (rt : Runtime)

/-! ## `AdPlayPolicy_AdPlay_PlayTime` -/

namespace PlayTime

/-- The `string` members are UTF-8. -/
structure WellFormed (r : PlayTime) : Prop where
  bgnTime : isValidUtf8 r.bgnTime = true
  endTime : isValidUtf8 r.endTime = true

theorem mergeFrom_default (r : PlayTime) : mergeFrom {} r = r := by
  simp only [mergeFrom, ite_length_default]

/-- The message type. -/
def codec : Codec PlayTime rt where
  fields := fields rt
  default := {}
  WellFormed := WellFormed
  disjoint := by
    apply disjoint_of_tags
    have htags : (fields rt).map Field.tags =
      [[10], [18]] := rfl
    rw [htags]
    decide +kernel
  emits s hwf := by
    simp only [fields, List.forall_mem_cons]
    exact ⟨stringField_emits _ hwf.bgnTime, stringField_emits _ hwf.endTime, by simp⟩
  keeps f hf t m input r rest hm hread := by
    simp only [fields, List.mem_cons, List.not_mem_nil, or_false] at hf
    rcases hf with rfl | rfl
    · obtain ⟨v, hv, rfl⟩ := stringField_read hread
      exact { hm with bgnTime := hv }
    · obtain ⟨v, hv, rfl⟩ := stringField_read hread
      exact { hm with endTime := hv }
  default_wellFormed := { bgnTime := rfl, endTime := rfl }
  merge_default := mergeFrom_default

/-- **`ByteSizeLong` announces what `SerializeWithCachedSizes` writes.** -/
theorem byteSizeLong_eq (r : PlayTime) :
    r.serialize.length = r.byteSizeLong := by
  simp only [serialize, List.flatten_cons, List.flatten_nil, List.length_append, List.length_nil]
  rw [putBytes_length (t := 10) (k := 1) rfl, putBytes_length (t := 18) (k := 1) rfl, byteSizeLong]
  ac_rfl

end PlayTime

/-! ## `AdPlayPolicy_AdPlay` -/

namespace AdPlay

/-- The `string` members are UTF-8. -/
structure WellFormed (r : AdPlay) : Prop where
  playTimes : ∀ a ∈ r.playTimes, a.WellFormed

theorem mergeFrom_default (r : AdPlay) : mergeFrom {} r = r := by
  simp only [mergeFrom, ite_ne_default, ite_true_default, List.nil_append]

/-- The message type. -/
def codec : Codec AdPlay rt where
  fields := fields rt
  default := {}
  WellFormed := WellFormed
  disjoint := by
    apply disjoint_of_tags
    have htags : (fields rt).map Field.tags =
      [[8], [16], [24], [34], [42, 40]] := rfl
    rw [htags]
    decide +kernel
  emits s hwf := by
    simp only [fields, List.forall_mem_cons]
    exact ⟨fun _ => int32Field_emits _, fun _ => int32Field_emits _, fun _ => boolField_emits _,
      messagesField_emits _ fun a ha => (PlayTime.codec rt).parse_serialize (hwf.playTimes a ha),
      int32sField_emits _, by simp⟩
  keeps f hf t m input r rest hm hread := by
    simp only [fields, List.mem_cons, List.not_mem_nil, or_false] at hf
    rcases hf with rfl | rfl | rfl | rfl | rfl
    · obtain ⟨v, rfl⟩ := int32Field_read hread
      exact { hm with }
    · obtain ⟨v, rfl⟩ := int32Field_read hread
      exact { hm with }
    · obtain ⟨v, rfl⟩ := boolField_read hread
      exact { hm with }
    · obtain ⟨part, a, ha, rfl⟩ := messagesField_read hread
      exact { hm with playTimes := forall_mem_concat hm.playTimes ((PlayTime.codec rt).parse_wellFormed ha) }
    · obtain ⟨vs, rfl⟩ := int32sField_read hread
      exact { hm with }
  default_wellFormed := { playTimes := by simp }
  merge_default := mergeFrom_default

/-- **`ByteSizeLong` announces what `SerializeWithCachedSizes` writes.** -/
theorem byteSizeLong_eq {r : AdPlay} (hlen : r.serialize.length < 2 ^ 31) :
    r.serialize.length = r.byteSizeLong := by
  have hparts : ∀ a ∈ r.playTimes, a.serialize.length = a.byteSizeLong :=
    fun a _ => a.byteSizeLong_eq
  have hadIds : (putInt32s 42 r.adIds).length < 2 ^ 31 :=
    Nat.lt_of_le_of_lt (length_le_flatten (i := 4) rfl) hlen
  simp only [serialize, List.flatten_cons, List.flatten_nil, List.length_append, List.length_nil]
  rw [putInt32_length (t := 8) (k := 1) rfl, putInt32_length (t := 16) (k := 1) rfl,
    putBool_length (t := 24) (k := 1) rfl, putMessages_length (t := 34) (k := 1) rfl _ hparts,
    putInt32s_length (t := 42) (k := 1) rfl _ hadIds, byteSizeLong]
  ac_rfl

end AdPlay

/-! ## `AdPlayPolicy` -/

namespace AdPlayPolicy

/-- The `string` members are UTF-8. -/
structure WellFormed (r : AdPlayPolicy) : Prop where
  version : isValidUtf8 r.version = true
  dateTime : isValidUtf8 r.dateTime = true
  adPlays : ∀ a ∈ r.adPlays, a.WellFormed

theorem mergeFrom_default (r : AdPlayPolicy) : mergeFrom {} r = r := by
  simp only [mergeFrom, ite_ne_default, ite_length_default, List.nil_append]

/-- The message type. -/
def codec : Codec AdPlayPolicy rt where
  fields := fields rt
  default := {}
  WellFormed := WellFormed
  disjoint := by
    apply disjoint_of_tags
    have htags : (fields rt).map Field.tags =
      [[8], [18], [26], [34]] := rfl
    rw [htags]
    decide +kernel
  emits s hwf := by
    simp only [fields, List.forall_mem_cons]
    exact ⟨fun _ => int32Field_emits _, stringField_emits _ hwf.version,
      stringField_emits _ hwf.dateTime,
      messagesField_emits _ fun a ha => (AdPlay.codec rt).parse_serialize (hwf.adPlays a ha),
      by simp⟩
  keeps f hf t m input r rest hm hread := by
    simp only [fields, List.mem_cons, List.not_mem_nil, or_false] at hf
    rcases hf with rfl | rfl | rfl | rfl
    · obtain ⟨v, rfl⟩ := int32Field_read hread
      exact { hm with }
    · obtain ⟨v, hv, rfl⟩ := stringField_read hread
      exact { hm with version := hv }
    · obtain ⟨v, hv, rfl⟩ := stringField_read hread
      exact { hm with dateTime := hv }
    · obtain ⟨part, a, ha, rfl⟩ := messagesField_read hread
      exact { hm with adPlays := forall_mem_concat hm.adPlays ((AdPlay.codec rt).parse_wellFormed ha) }
  default_wellFormed := { version := rfl, dateTime := rfl, adPlays := by simp }
  merge_default := mergeFrom_default

/-- **`ByteSizeLong` announces what `SerializeWithCachedSizes` writes.** -/
theorem byteSizeLong_eq {r : AdPlayPolicy} (hlen : r.serialize.length < 2 ^ 31) :
    r.serialize.length = r.byteSizeLong := by
  have hparts : ∀ a ∈ r.adPlays, a.serialize.length = a.byteSizeLong := by
    intro a ha
    have hle := length_le_tagged (t := 34) AdPlay.serialize ha
    have hall : (putMessages 34 AdPlay.serialize r.adPlays).length ≤ r.serialize.length :=
      length_le_flatten (i := 3) rfl
    exact AdPlay.byteSizeLong_eq (Nat.lt_of_le_of_lt (Nat.le_trans hle hall) hlen)
  simp only [serialize, List.flatten_cons, List.flatten_nil, List.length_append, List.length_nil]
  rw [putInt32_length (t := 8) (k := 1) rfl, putBytes_length (t := 18) (k := 1) rfl,
    putBytes_length (t := 26) (k := 1) rfl, putMessages_length (t := 34) (k := 1) rfl _ hparts, byteSizeLong]
  ac_rfl

end AdPlayPolicy

/-! ## `Ad` -/

namespace Ad

/-- The `string` members are UTF-8. -/
structure WellFormed (r : Ad) : Prop where
  name : isValidUtf8 r.name = true
  fileName : isValidUtf8 r.fileName = true
  advertiser : isValidUtf8 r.advertiser = true
  url : isValidUtf8 r.url = true
  format : isValidUtf8 r.format = true
  md5 : isValidUtf8 r.md5 = true
  download : ∀ b ∈ r.download, isValidUtf8 b = true
  visitStatCode : ∀ b ∈ r.visitStatCode, isValidUtf8 b = true

theorem mergeFrom_default (r : Ad) : mergeFrom {} r = r := by
  simp only [mergeFrom, ite_ne_default, ite_length_default, List.nil_append]

/-- The message type. -/
def codec : Codec Ad rt where
  fields := fields rt
  default := {}
  WellFormed := WellFormed
  disjoint := by
    apply disjoint_of_tags
    have htags : (fields rt).map Field.tags =
      [[8], [18], [26], [34], [40], [50], [58], [64], [72], [82], [88],
       [98], [104], [114], [120], [128], [136], [146], [154, 152], [162, 160]] := rfl
    rw [htags]
    decide +kernel
  emits s hwf := by
    simp only [fields, List.forall_mem_cons]
    exact ⟨fun _ => int32Field_emits _, stringField_emits _ hwf.name, stringField_emits _ hwf.fileName,
      stringField_emits _ hwf.advertiser, fun _ => int32Field_emits _, stringField_emits _ hwf.url,
      bytesField_emits _, fun _ => int32Field_emits _, fun _ => int32Field_emits _,
      stringField_emits _ hwf.format, fun _ => int32Field_emits _, stringField_emits _ hwf.md5,
      fun _ => int32Field_emits _, stringsField_emits _ hwf.download, fun _ => int32Field_emits _,
      fun _ => int32Field_emits _, fun _ => int32Field_emits _,
      stringsField_emits _ hwf.visitStatCode, int32sField_emits _, int32sField_emits _, by simp⟩
  keeps f hf t m input r rest hm hread := by
    simp only [fields, List.mem_cons, List.not_mem_nil, or_false] at hf
    rcases hf with rfl | rfl | rfl | rfl | rfl | rfl | rfl | rfl | rfl | rfl | rfl | rfl | rfl |
      rfl | rfl | rfl | rfl | rfl | rfl | rfl
    · obtain ⟨v, rfl⟩ := int32Field_read hread
      exact { hm with }
    · obtain ⟨v, hv, rfl⟩ := stringField_read hread
      exact { hm with name := hv }
    · obtain ⟨v, hv, rfl⟩ := stringField_read hread
      exact { hm with fileName := hv }
    · obtain ⟨v, hv, rfl⟩ := stringField_read hread
      exact { hm with advertiser := hv }
    · obtain ⟨v, rfl⟩ := int32Field_read hread
      exact { hm with }
    · obtain ⟨v, hv, rfl⟩ := stringField_read hread
      exact { hm with url := hv }
    · obtain ⟨v, rfl⟩ := bytesField_read hread
      exact { hm with }
    · obtain ⟨v, rfl⟩ := int32Field_read hread
      exact { hm with }
    · obtain ⟨v, rfl⟩ := int32Field_read hread
      exact { hm with }
    · obtain ⟨v, hv, rfl⟩ := stringField_read hread
      exact { hm with format := hv }
    · obtain ⟨v, rfl⟩ := int32Field_read hread
      exact { hm with }
    · obtain ⟨v, hv, rfl⟩ := stringField_read hread
      exact { hm with md5 := hv }
    · obtain ⟨v, rfl⟩ := int32Field_read hread
      exact { hm with }
    · obtain ⟨v, hv, rfl⟩ := stringsField_read hread
      exact { hm with download := forall_mem_concat hm.download hv }
    · obtain ⟨v, rfl⟩ := int32Field_read hread
      exact { hm with }
    · obtain ⟨v, rfl⟩ := int32Field_read hread
      exact { hm with }
    · obtain ⟨v, rfl⟩ := int32Field_read hread
      exact { hm with }
    · obtain ⟨v, hv, rfl⟩ := stringsField_read hread
      exact { hm with visitStatCode := forall_mem_concat hm.visitStatCode hv }
    · obtain ⟨vs, rfl⟩ := int32sField_read hread
      exact { hm with }
    · obtain ⟨vs, rfl⟩ := int32sField_read hread
      exact { hm with }
  default_wellFormed :=
    { name := rfl, fileName := rfl, advertiser := rfl, url := rfl, format := rfl, md5 := rfl,
      download := by simp, visitStatCode := by simp }
  merge_default := mergeFrom_default

/-- **`ByteSizeLong` announces what `SerializeWithCachedSizes` writes.** -/
theorem byteSizeLong_eq {r : Ad} (hlen : r.serialize.length < 2 ^ 31) :
    r.serialize.length = r.byteSizeLong := by
  have hpausePopAdIds : (putInt32s 154 r.pausePopAdIds).length < 2 ^ 31 :=
    Nat.lt_of_le_of_lt (length_le_flatten (i := 18) rfl) hlen
  have hunlockPopAdIds : (putInt32s 162 r.unlockPopAdIds).length < 2 ^ 31 :=
    Nat.lt_of_le_of_lt (length_le_flatten (i := 19) rfl) hlen
  simp only [serialize, List.flatten_cons, List.flatten_nil, List.length_append, List.length_nil]
  rw [putInt32_length (t := 8) (k := 1) rfl, putBytes_length (t := 18) (k := 1) rfl,
    putBytes_length (t := 26) (k := 1) rfl, putBytes_length (t := 34) (k := 1) rfl,
    putInt32_length (t := 40) (k := 1) rfl, putBytes_length (t := 50) (k := 1) rfl,
    putBytes_length (t := 58) (k := 1) rfl, putInt32_length (t := 64) (k := 1) rfl,
    putInt32_length (t := 72) (k := 1) rfl, putBytes_length (t := 82) (k := 1) rfl,
    putInt32_length (t := 88) (k := 1) rfl, putBytes_length (t := 98) (k := 1) rfl,
    putInt32_length (t := 104) (k := 1) rfl, putStrings_length (t := 114) (k := 1) rfl,
    putInt32_length (t := 120) (k := 1) rfl, putInt32_length (t := 128) (k := 2) rfl,
    putInt32_length (t := 136) (k := 2) rfl, putStrings_length (t := 146) (k := 2) rfl,
    putInt32s_length (t := 154) (k := 2) rfl _ hpausePopAdIds,
    putInt32s_length (t := 162) (k := 2) rfl _ hunlockPopAdIds, byteSizeLong]
  ac_rfl

end Ad

/-! ## `Result` -/

namespace Result

/-- The `string` members are UTF-8. -/
structure WellFormed (r : Result) : Prop where
  ads : ∀ a ∈ r.ads, a.WellFormed

theorem mergeFrom_default (r : Result) : mergeFrom {} r = r := by
  simp only [mergeFrom, List.nil_append]

/-- The message type. -/
def codec : Codec Result rt where
  fields := fields rt
  default := {}
  WellFormed := WellFormed
  disjoint := by
    apply disjoint_of_tags
    have htags : (fields rt).map Field.tags =
      [[10]] := rfl
    rw [htags]
    decide +kernel
  emits s hwf := by
    simp only [fields, List.forall_mem_cons]
    exact ⟨messagesField_emits _ fun a ha => (Ad.codec rt).parse_serialize (hwf.ads a ha), by simp⟩
  keeps f hf t m input r rest hm hread := by
    obtain rfl := List.mem_singleton.mp hf
    obtain ⟨part, a, ha, rfl⟩ := messagesField_read hread
    exact { hm with ads := forall_mem_concat hm.ads ((Ad.codec rt).parse_wellFormed ha) }
  default_wellFormed := { ads := by simp }
  merge_default := mergeFrom_default

/-- **`ByteSizeLong` announces what `SerializeWithCachedSizes` writes.** -/
theorem byteSizeLong_eq {r : Result} (hlen : r.serialize.length < 2 ^ 31) :
    r.serialize.length = r.byteSizeLong := by
  have hparts : ∀ a ∈ r.ads, a.serialize.length = a.byteSizeLong := by
    intro a ha
    have hle := length_le_tagged (t := 10) Ad.serialize ha
    have hall : (putMessages 10 Ad.serialize r.ads).length ≤ r.serialize.length :=
      length_le_flatten (i := 0) rfl
    exact Ad.byteSizeLong_eq (Nat.lt_of_le_of_lt (Nat.le_trans hle hall) hlen)
  simp only [serialize, List.flatten_cons, List.flatten_nil, List.length_append, List.length_nil]
  rw [putMessages_length (t := 10) (k := 1) rfl _ hparts, byteSizeLong]
  ac_rfl

end Result

/-! ## What the parsers accept -/

section Accept

variable {rt : Runtime} {input : Bytes}

/-- **Contents are read back as they were serialized exactly when their strings are UTF-8**, policies as well
as ad lists. -/
theorem contents_read_back_iff (rt : Runtime) {p : AdPlayPolicy} {r : Result}
    (hp : p.serialize.length < 2 ^ 31) (hr : r.serialize.length < 2 ^ 31) :
    (AdPlayPolicy.parse rt p.serialize = (p, true) ↔ p.WellFormed) ∧
      (Result.parse rt r.serialize = (r, true) ↔ r.WellFormed) := by
  refine ⟨⟨?_, ?_⟩, ?_, ?_⟩
  · exact (AdPlayPolicy.codec rt).parse_wellFormed
  · exact fun hwf => (AdPlayPolicy.codec rt).parse_serialize hwf hp
  · exact (Result.codec rt).parse_wellFormed
  · exact fun hwf => (Result.codec rt).parse_serialize hwf hr

/-- A library for inputs without unknown fields. -/
def sampleRuntime : Runtime where
  skipField := fun _ _ => none
  unreadable := fun _ => []
  failedString := fun old _ => old
  reserved := fun _ => 0

/-- A policy for the lock screen and the pop-up location. -/
def twoLocations : AdPlayPolicy where
  id := 7
  version := ascii "v1"
  adPlays :=
    [{ location := 1, needSync := true, playTimes := [{ bgnTime := ascii "08:00" }], adIds := [1, -2] },
     { location := 2, adIds := [300] }]

/-- A list of two ads. -/
def twoAds : Result where
  ads := [{ id := 1, name := ascii "a", download := [ascii "u", ascii "v"], pausePopAdIds := [5, -5] },
    { id := -2, size := 4096, visitStatCode := [ascii "s"] }]

theorem samples_read_back :
    AdPlayPolicy.parse sampleRuntime twoLocations.serialize = (twoLocations, true) ∧
      Result.parse sampleRuntime twoAds.serialize = (twoAds, true) := by
  decide +kernel

theorem samples_length :
    twoLocations.serialize.length < 2 ^ 31 ∧ twoAds.serialize.length < 2 ^ 31 := by
  decide +kernel

theorem twoLocations_wellFormed : twoLocations.WellFormed :=
  (AdPlayPolicy.codec sampleRuntime).parse_wellFormed samples_read_back.1

theorem twoAds_wellFormed : twoAds.WellFormed :=
  (Result.codec sampleRuntime).parse_wellFormed samples_read_back.2

theorem contents_read_back_iff_sample :
    (AdPlayPolicy.parse sampleRuntime twoLocations.serialize = (twoLocations, true) ↔
      twoLocations.WellFormed) ∧
    (Result.parse sampleRuntime twoAds.serialize = (twoAds, true) ↔ twoAds.WellFormed) :=
  contents_read_back_iff sampleRuntime samples_length.1 samples_length.2

/-- **Two serialized policies one behind the other are read as the second merged into the first.** -/
theorem policies_concatenated (rt : Runtime) {p q : AdPlayPolicy} (hp : p.WellFormed)
    (hq : q.WellFormed) (hlen : p.serialize.length < 2 ^ 31) (hlen' : q.serialize.length < 2 ^ 31) :
    AdPlayPolicy.parse rt (p.serialize ++ q.serialize) = (AdPlayPolicy.mergeFrom p q, true) := by
  have hall := (AdPlayPolicy.codec rt).mergePartial_append hp hq hlen hlen' {}
  have hfirst : (AdPlayPolicy.codec rt).mergeFrom {} p = p := AdPlayPolicy.mergeFrom_default p
  rw [hfirst] at hall
  exact hall

/-- A later version, for the pop-up location only; its `id` is the default. -/
def laterVersion : AdPlayPolicy where
  version := ascii "v2"
  adPlays := [{ location := 2, adIds := [7] }]

/-- A list as another writer may put it: the ad's members in another order, its `id` twice, its ints not
packed. -/
def foreignAds : Bytes :=
  let ad := putBytes 18 (ascii "a") ++ putInt32 8 2 ++ putInt32 152 5 ++ putInt32 152 (-5) ++ putInt32 8 3
  writeTag 10 ++ (Varint.encode ad.length ++ ad)

/-- A third ad, complete. -/
def thirdAd : Ad where
  id := 3
  name := ascii "c"
  fileName := ascii "f"
  md5 := ascii "d"
  download := [ascii "u"]

/-- What is read of them. -/
def merged : AdPlayPolicy where
  id := 7
  version := ascii "v2"
  adPlays := twoLocations.adPlays ++ laterVersion.adPlays

def foreign : Result where
  ads := [{ id := 3, name := ascii "a", pausePopAdIds := [5, -5] }]

theorem others_read :
    (AdPlayPolicy.parse sampleRuntime laterVersion.serialize = (laterVersion, true) ∧
      AdPlayPolicy.parse sampleRuntime (twoLocations.serialize ++ laterVersion.serialize) =
        (merged, true) ∧
      Result.parse sampleRuntime foreignAds = (foreign, true) ∧
      Ad.parse sampleRuntime thirdAd.serialize = (thirdAd, true)) ∧
    laterVersion.serialize.length < 2 ^ 31 ∧ merged.serialize.length < 2 ^ 31 ∧
    foreign.serialize.length < 2 ^ 31 ∧ thirdAd.serialize.length < 2 ^ 31 := by
  decide +kernel

theorem laterVersion_wellFormed : laterVersion.WellFormed :=
  (AdPlayPolicy.codec sampleRuntime).parse_wellFormed others_read.1.1

theorem thirdAd_wellFormed : thirdAd.WellFormed :=
  (Ad.codec sampleRuntime).parse_wellFormed others_read.1.2.2.2

/-- The later version wins, where it says something. -/
theorem policies_concatenated_sample :
    AdPlayPolicy.parse sampleRuntime (twoLocations.serialize ++ laterVersion.serialize) = (merged, true) :=
  (policies_concatenated sampleRuntime twoLocations_wellFormed laterVersion_wellFormed
    samples_length.1 others_read.2.1).trans (by decide)

/-- **What is accepted has a canonical form**: it announces its size, and is read back. -/
theorem contents_canonical {p : AdPlayPolicy} {r : Result} {input' : Bytes}
    (hp : AdPlayPolicy.parse rt input = (p, true)) (hr : Result.parse rt input' = (r, true))
    (hlen : p.serialize.length < 2 ^ 31) (hlen' : r.serialize.length < 2 ^ 31) :
    (p.serialize.length = p.byteSizeLong ∧ AdPlayPolicy.parse rt p.serialize = (p, true)) ∧
      (r.serialize.length = r.byteSizeLong ∧ Result.parse rt r.serialize = (r, true)) := by
  have hwf := (AdPlayPolicy.codec rt).parse_wellFormed hp
  have hwf' := (Result.codec rt).parse_wellFormed hr
  exact ⟨⟨AdPlayPolicy.byteSizeLong_eq hlen, (AdPlayPolicy.codec rt).parse_serialize hwf hlen⟩,
    Result.byteSizeLong_eq hlen', (Result.codec rt).parse_serialize hwf' hlen'⟩

/-- Bytes that are not canonical, and what is read of them. -/
theorem contents_canonical_sample :
    (merged.serialize ≠ twoLocations.serialize ++ laterVersion.serialize ∧ foreign.serialize ≠ foreignAds) ∧
    (merged.serialize.length = merged.byteSizeLong ∧
      AdPlayPolicy.parse sampleRuntime merged.serialize = (merged, true)) ∧
    (foreign.serialize.length = foreign.byteSizeLong ∧
      Result.parse sampleRuntime foreign.serialize = (foreign, true)) :=
  ⟨by decide +kernel, contents_canonical others_read.1.2.1 others_read.1.2.2.1 others_read.2.2.1
    others_read.2.2.2.1⟩

/-- The first `k` members of an ad. -/
def Ad.cutOff (rt : Runtime) (k : Nat) (a : Ad) : Ad := TagLoop.mergeAll ((Ad.fields rt).take k) a {}

/-- **A list that breaks off in its last ad is accepted**, with an ad that has only the members that came
through. Broken off before its download paths, it has none. -/
theorem adList_truncated (rt : Runtime) {r : Result} {a : Ad} (hr : r.WellFormed)
    (ha : a.WellFormed) (hlen : r.serialize.length < 2 ^ 31) (halen : a.serialize.length < 2 ^ 31)
    (k : Nat) :
    Result.parse rt (r.serialize ++ (writeTag 10 ++ (Varint.encode a.serialize.length ++
        TagLoop.writeAll ((Ad.fields rt).take k) a))) =
      ({ ads := r.ads ++ [a.cutOff rt k] }, true) ∧
    (k ≤ 13 → (a.cutOff rt k).download = []) := by
  refine ⟨?_, ?_⟩
  · have hn : (UInt32.ofNat a.serialize.length).toNat = a.serialize.length := by
      rw [UInt32.toNat_ofNat']
      omega
    have hwhole : a.serialize = TagLoop.writeAll ((Ad.fields rt).take k) a ++
        TagLoop.writeAll ((Ad.fields rt).drop k) a := by
      rw [TagLoop.writeAll, TagLoop.writeAll, ← List.flatMap_append, List.take_append_drop]
      rfl
    have hshort : (TagLoop.writeAll ((Ad.fields rt).take k) a).length ≤ a.serialize.length := by
      rw [hwhole, List.length_append]
      omega
    have hsub : Ad.parse rt (TagLoop.writeAll ((Ad.fields rt).take k) a) = (a.cutOff rt k, true) :=
      (Ad.codec rt).parse_fields (fun g hg => List.mem_of_mem_take hg) ha halen
    have hread : readVarint32 (Varint.encode a.serialize.length ++
        TagLoop.writeAll ((Ad.fields rt).take k) a) = some (UInt32.ofNat a.serialize.length,
          TagLoop.writeAll ((Ad.fields rt).take k) a) :=
      Message.readVarint32_encode (by omega) _
    -- the last turn reads an element to the end of the input
    have hlast : TagLoop.Reads tags (TagLoop.dispatch (Result.fields rt) (unusual rt))
        ({ ads := r.ads } : Result) (writeTag 10 ++ (Varint.encode a.serialize.length ++
          TagLoop.writeAll ((Ad.fields rt).take k) a)) { ads := r.ads ++ [a.cutOff rt k] } := by
      rw [← List.append_nil (Varint.encode a.serialize.length ++ _)]
      refine TagLoop.reads_turn (T := tags) (t := 10) ?_ TagLoop.reads_nil
      rw [List.append_nil]
      show (messagesField rt 10 _ (Ad.parse rt) Ad.serialize).read 10 _ _ = _
      simp only [messagesField, readMessage, hread, hn, List.take_of_length_le hshort,
        List.drop_eq_nil_of_le hshort, hsub, if_true]
      rfl
    exact Codec.reads_serialize (c := Result.codec rt) (m := {}) hr hlen hlast _ (Nat.le_refl _)
  · intro hk
    interval_cases k <;> rfl

/-- The list of two ads and a third one that breaks off behind its digest. -/
theorem adList_truncated_sample :
    Result.parse sampleRuntime (twoAds.serialize ++ (writeTag 10 ++
        (Varint.encode thirdAd.serialize.length ++
          TagLoop.writeAll ((Ad.fields sampleRuntime).take 12) thirdAd))) =
      ({ ads := twoAds.ads ++ [{ id := 3, name := ascii "c", fileName := ascii "f", md5 := ascii "d" }] },
        true) :=
  (adList_truncated sampleRuntime twoAds_wellFormed thirdAd_wellFormed samples_length.2
    others_read.2.2.2.2 12).1.trans (by decide)

end Accept

end AdManager.Business
