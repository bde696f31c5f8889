import CoinAddress.Proofs.PointForms

/-!
# Which byte strings are keys

A plain key of secp256k1 is the short form of a point, 33 bytes that start with `02` or `03`, or the
long one, 65 bytes that start with `04`. Every point has one key in each of them, and one more that
is read as well: the hybrid form, a long one whose first byte repeats the parity of the second
coordinate. These are all: `ofBytes?_eq_some_iff_mem_forms`.

The formats that hash a key as it is given write an address for each of the three: `keys_of_point`.
That a point really has three addresses there shows in `exists_three_addresses`.
-/

namespace CoinAddress

namespace Secp256k1

/-- Whether a key looks like a short form, or like a long one with the plain tag. -/
def Plain (key : Bytes) : Prop :=
  key.length = 33 ∧ (key.head? = some 0x02 ∨ key.head? = some 0x03) ∨
    key.length = 65 ∧ key.head? = some 0x04

namespace Point

/-- The plain keys of a point. -/
def plainForms (p : Point) : List Bytes := [p.compressed, 0x04 :: p.coordinates]

/-- The key of a point that has both coordinates behind a tag for the parity of the second one. -/
def hybridForm (p : Point) : Bytes := (if p.y % 2 = 1 then 0x07 else 0x06) :: p.coordinates

/-- All keys of a point. -/
def forms (p : Point) : List Bytes := p.plainForms ++ [p.hybridForm]

theorem mem_forms {p : Point} {key : Bytes} : key ∈ p.forms ↔
    key = p.compressed ∨ key = 0x04 :: p.coordinates ∨ key = p.hybridForm := by
  simp [forms, plainForms]

theorem plain_of_mem {p : Point} {key : Bytes} (h : key ∈ p.plainForms) : Plain key := by
  rcases List.mem_pair.1 h with rfl | rfl
  · refine .inl ⟨p.length_compressed, ?_⟩
    rw [compressed, List.head?_cons]
    split
    · exact .inr rfl
    · exact .inl rfl
  · refine .inr ⟨?_, rfl⟩
    rw [List.length_cons, length_coordinates]

theorem not_plain_hybridForm (p : Point) : ¬ Plain p.hybridForm := by
  rw [Plain, hybridForm, List.length_cons, length_coordinates, List.head?_cons]
  split
  · decide
  · decide

/-- With one coordinate, what is read as a point is its short form. -/
theorem eq_compressed_of_ofX? {tag : UInt8} (htag : tag = 0x02 ∨ tag = 0x03) {body : Bytes}
    (hlen : body.length = 32) {p : Point} (h : ofX? (Bytes.beNat body) (tag == 0x03) = some p) :
    tag :: body = p.compressed := by
  obtain ⟨hx, hparity⟩ := ofX?_eq_some_iff.1 h
  rw [compressed, hx, Bytes.beBytes_beNat hlen]
  rcases htag with rfl | rfl
  · rw [if_neg (beq_eq_false_iff_ne.1 hparity)]
  · rw [if_pos (beq_iff_eq.1 hparity)]

/-- With both coordinates, it has one of two tags. -/
theorem eq_of_ofCoordinates? {tag : UInt8} {body : Bytes} (hlen : body.length = 64) {p : Point}
    (htag : tagAdmits tag (Bytes.beNat (body.drop 32)))
    (h : ofCoordinates? (Bytes.beNat (body.take 32)) (Bytes.beNat (body.drop 32)) = some p) :
    tag :: body = 0x04 :: p.coordinates ∨ tag :: body = p.hybridForm := by
  obtain ⟨hx, hy⟩ := ofCoordinates?_eq_some_iff.1 h
  have hbody : body = p.coordinates := by
    rw [coordinates, hx, hy, Bytes.beBytes_beNat (by simp [hlen]),
      Bytes.beBytes_beNat (by simp [hlen]), List.take_append_drop]
  rw [← hy] at htag
  subst hbody
  simp only [tagAdmits, Bool.or_eq_true, Bool.and_eq_true, beq_iff_eq] at htag
  rcases htag with (rfl | ⟨rfl, heven⟩) | ⟨rfl, hodd⟩
  · exact .inl rfl
  · exact .inr (by rw [hybridForm, if_neg (by omega)])
  · exact .inr (by rw [hybridForm, if_pos hodd])

/-- The hybrid form of a point is read as the point. -/
theorem ofBytes?_hybridForm (p : Point) : ofBytes? p.hybridForm = some p := by
  refine ofBytes?_of_tagAdmits ?_
  split
  · next hodd => simp [tagAdmits, hodd]
  · next heven => simp [tagAdmits, Nat.mod_two_ne_one.1 heven]

/-- **Every point has three keys:** its two plain forms and its hybrid form are read as the point,
and nothing else is. -/
theorem ofBytes?_eq_some_iff_mem_forms {key : Bytes} {p : Point} :
    ofBytes? key = some p ↔ key ∈ p.forms := by
  rw [mem_forms]
  constructor
  · intro h
    cases key with
    | nil => cases h
    | cons tag body =>
      rw [ofBytes?] at h
      split at h
      · next hlen =>
        obtain ⟨htag, h⟩ := Option.ite_none_right_eq_some.1 h
        exact .inl (eq_compressed_of_ofX? htag hlen h)
      · obtain ⟨hlen, h⟩ := Option.ite_none_right_eq_some.1 h
        obtain ⟨htag, h⟩ := Option.ite_none_right_eq_some.1 h
        exact .inr (eq_of_ofCoordinates? hlen htag h)
  · rintro (rfl | rfl | rfl)
    · exact ofBytes?_compressed p
    · exact ofBytes?_coordinates p
    · exact ofBytes?_hybridForm p

end Point

end Secp256k1

open Secp256k1 (Point Plain)

theorem Family.encode_base58Check_of_point {version key : Bytes} {p : Point}
    (h : Point.ofBytes? key = some p) :
    (base58Check version).encode key =
      .ok (Base58Check.encode version (Ripemd160.keyHash key)) := by
  rw [encode_eq_encodeKey rfl h, encodeKey, Account.givenHash_of_point h, Except.map]

theorem Family.encode_ripple_of_point {key : Bytes} {p : Point}
    (h : Point.ofBytes? key = some p) :
    ripple.encode key = Ripple.encode (Ripemd160.keyHash key) := by
  rw [encode_eq_encodeKey rfl h, encodeKey, Account.givenHash_of_point h]
  exact pure_bind (Ripemd160.keyHash key) Ripple.encode

/-- **The keys of a point and its addresses.** The plain keys that are read as a point are its two
plain forms, and its hybrid form is the only other key. Where a key is hashed as it is given, the
addresses of the point are those of the three. -/
theorem keys_of_point (p : Point) :
    (∀ key, Point.ofBytes? key = some p ∧ Plain key ↔ key ∈ p.plainForms) ∧
    (∀ key, Point.ofBytes? key = some p ∧ ¬ Plain key ↔ key = p.hybridForm) ∧
    (∀ version s, (∃ key, Point.ofBytes? key = some p ∧
        (Family.base58Check version).encode key = .ok s) ↔
      ∃ form ∈ p.forms, s = Base58Check.encode version (Ripemd160.keyHash form)) ∧
    ∀ s, (∃ key, Point.ofBytes? key = some p ∧ Family.ripple.encode key = .ok s) ↔
      ∃ form ∈ p.forms, Ripple.encode (Ripemd160.keyHash form) = .ok s := by
  have hforms : ∀ key, Point.ofBytes? key = some p ↔ key ∈ p.forms :=
    fun key => Point.ofBytes?_eq_some_iff_mem_forms
  refine ⟨?_, ?_, ?_, ?_⟩
  · intro key
    rw [hforms, Point.forms, List.mem_append, List.mem_singleton]
    constructor
    · rintro ⟨h | rfl, hplain⟩
      · exact h
      · exact absurd hplain p.not_plain_hybridForm
    · intro h
      exact ⟨.inl h, Point.plain_of_mem h⟩
  · intro key
    rw [hforms, Point.forms, List.mem_append, List.mem_singleton]
    constructor
    · rintro ⟨h | h, hplain⟩
      · exact absurd (Point.plain_of_mem h) hplain
      · exact h
    · rintro rfl
      exact ⟨.inr rfl, p.not_plain_hybridForm⟩
  · intro version s
    refine exists_congr fun key => ?_
    rw [← hforms]
    refine and_congr_right fun h => ?_
    rw [Family.encode_base58Check_of_point h, Except.ok.injEq, eq_comm]
  · intro s
    refine exists_congr fun key => ?_
    rw [← hforms]
    refine and_congr_right fun h => ?_
    rw [Family.encode_ripple_of_point h]

/-- The keys of the sample point: its short form, the long one, and the hybrid one. -/
def sampleKeys : List Bytes :=
  let coordinates : Bytes :=
    [0xc8, 0x23, 0xf6, 0x33, 0x17, 0x7e, 0xfe, 0x8a, 0xa3, 0x64, 0x2c, 0x81, 0x92, 0xde, 0x41, 0x82,
     0x7b, 0xd7, 0xf7, 0x06, 0xd2, 0xf8, 0x46, 0x19, 0xf4, 0x8d, 0x4c, 0xd3, 0xb7, 0x48, 0x8e, 0xc3,
     0xf8, 0x7a, 0x41, 0x9e, 0xeb, 0xd3, 0xc8, 0xa5, 0x69, 0x8a, 0x5f, 0xd1, 0x67, 0x63, 0xda, 0xce,
     0x5a, 0xdd, 0x79, 0xbf, 0x6f, 0xc9, 0x9e, 0x30, 0x14, 0x64, 0x66, 0xe0, 0xd6, 0xbf, 0x74, 0xbe]
  [0x02 :: coordinates.take 32, 0x04 :: coordinates, 0x06 :: coordinates]

theorem forms_samplePoint : samplePoint.forms = sampleKeys := by decide +kernel

/-- The hashes of these keys. -/
def sampleHashes : List Bytes :=
  [[0x5f, 0xba, 0xde, 0x5f, 0x6b, 0x8a, 0x5f, 0x73, 0xf3, 0xf1, 0xba, 0x42, 0xea, 0x14, 0x1b, 0x6d,
    0x02, 0x07, 0x61, 0x18],
   [0xd9, 0xa3, 0x94, 0xe9, 0x66, 0xed, 0x9c, 0x8d, 0xbb, 0x0e, 0xbb, 0x63, 0x9b, 0xf9, 0xe2, 0xa0,
    0x77, 0x0b, 0xac, 0x3a],
   [0xf7, 0x48, 0x5b, 0x61, 0x84, 0x65, 0x45, 0x65, 0x07, 0x24, 0x5a, 0x73, 0xf5, 0x08, 0x12, 0xc2,
    0x71, 0x39, 0xef, 0xea]]

theorem keyHash_sampleKeys : sampleKeys.map Ripemd160.keyHash = sampleHashes := by decide +kernel

/-- **A key that is not plain is accepted, and gives its point a third address.** -/
theorem exists_three_addresses :
    (∀ key ∈ sampleKeys, Point.ofBytes? key = some samplePoint) ∧
    (∃ key ∈ sampleKeys, ¬ Plain key) ∧
    sampleKeys.map (Family.base58Check [0x1e]).encode =
      ["DDsGbLs7wsD6rR1WMkcRqqpqG9Wgxg338m".toList, "DQys8juCNxa9ubUQyarZwN1P86mUdxZZhW".toList,
        "DTgc86BAUnYMGZy8aczn7yoiDnfm2JPP1v".toList].map .ok ∧
    sampleKeys.map Family.ripple.encode =
      ["r9jBhnv7eTJFKQFudwc1JnCNPr8PbRAhgM".toList, "rLqmb7xZnYC14bHFNz1rPbq8NysBQpmYvJ".toList,
        "rPYW2qNXB4ehjZ8XisrD2DefLeATkeZDvm".toList].map .ok := by
  have hpoint : ∀ key ∈ sampleKeys, Point.ofBytes? key = some samplePoint := by
    intro key h
    rw [← forms_samplePoint] at h
    exact Point.ofBytes?_eq_some_iff_mem_forms.2 h
  have hbase : sampleKeys.map (Family.base58Check [0x1e]).encode =
      sampleHashes.map fun hash => .ok (Base58Check.encode [0x1e] hash) := by
    rw [← keyHash_sampleKeys, List.map_map, Function.comp_def]
    exact List.map_congr_left fun key h => Family.encode_base58Check_of_point (hpoint key h)
  have hripple : sampleKeys.map Family.ripple.encode = sampleHashes.map Ripple.encode := by
    rw [← keyHash_sampleKeys, List.map_map, Function.comp_def]
    exact List.map_congr_left fun key h => Family.encode_ripple_of_point (hpoint key h)
  refine ⟨hpoint, ⟨samplePoint.hybridForm, ?_, samplePoint.not_plain_hybridForm⟩, ?_, ?_⟩
  · rw [← forms_samplePoint, Point.mem_forms]
    exact .inr (.inr rfl)
  · rw [hbase]
    decide +kernel
  · rw [hripple]
    decide +kernel

end CoinAddress
