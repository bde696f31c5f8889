import CoinAddress.Ss58
import CoinAddress.Proofs.Base58Text
import CoinAddress.Proofs.Outcome

/-!
# Which texts are addresses of Substrate chains

A text is accepted for an account on a network just when it is the Base58 of bytes that are read
as the network's number, of the account, and of the checksum of both: `decode_eq_ok_iff`. The
bytes that are read as a number are those that are written for it, and for a number below 64 also
its two bytes: `names_iff`.
-/

namespace CoinAddress.Ss58

@[simp] theorem length_checksum (body : Bytes) : (checksum body).length = 2 := by
  rw [checksum, List.length_take, Blake2b.length_hash (Nat.le_refl 64)]
  rfl

/-- The network number that two bytes hold. -/
def wideNumber (first second : UInt8) : UInt16 :=
  ((first <<< 2) ||| (second >>> 6)).toUInt16 ||| ((second &&& 0x3f).toUInt16 <<< 8)

/-- The bytes that are read as a network number. A small one has two such byte strings. -/
inductive Names : Bytes → UInt16 → Prop
  | short {first : UInt8} (h : first < 64) : Names [first] first.toUInt16
  | wide {first : UInt8} (second : UInt8) (h : ¬ first < 64) (h' : first < 128) :
      Names [first, second] (wideNumber first second)

theorem networkOf_append {front : Bytes} {network : UInt16} (h : Names front network)
    (rest : Bytes) : networkOf (front ++ rest) = .ok (network, front.length) := by
  cases h with
  | short h =>
    rw [List.singleton_append, networkOf.eq_def]
    simp only [if_pos h]
    rfl
  | wide second h h' =>
    rw [List.cons_append, List.singleton_append, networkOf.eq_def]
    simp only [if_neg h, if_pos h']
    rfl

theorem names_of_networkOf {data : Bytes} {network : UInt16} {k : Nat}
    (h : networkOf data = .ok (network, k)) :
    ∃ front rest, data = front ++ rest ∧ front.length = k ∧ Names front network := by
  match data with
  | [] => cases h
  | first :: rest =>
    rw [networkOf.eq_def] at h
    simp only at h
    split at h
    · next hfirst =>
      cases h
      exact ⟨[first], rest, rfl, rfl, .short hfirst⟩
    · next hfirst =>
      split at h
      · next hfirst' =>
        match rest with
        | [] => cases h
        | second :: rest =>
          cases h
          exact ⟨[first, second], rest, rfl, rfl, .wide second hfirst hfirst'⟩
      · cases h

/-- The text of network bytes and an account, whatever they are. -/
def textOf (front account : Bytes) : Text :=
  Base58.encode (front ++ account ++ checksum (front ++ account))

/-- A text is read as an account on a network just when it is written so, with any bytes that are
read as the network's number. -/
theorem decode_eq_ok_iff {s : Text} {network : UInt16} {account : Bytes} :
    decode s = .ok (network, account) ↔
      account.length = 32 ∧ ∃ front, Names front network ∧ s = textOf front account := by
  constructor
  · intro h
    obtain ⟨data, hdata, h⟩ := bind_eq_ok_iff.1 h
    obtain ⟨⟨number, k⟩, hn, h⟩ := bind_eq_ok_iff.1 h
    -- the bytes are cut by counts, which are those of the network bytes and of the account
    obtain ⟨front, rest, rfl, rfl, hfront⟩ := names_of_networkOf hn
    obtain ⟨hshort, h⟩ := refuse_eq_ok_iff.1 h
    obtain ⟨hlong, h⟩ := refuse_eq_ok_iff.1 h
    obtain ⟨hsum, h⟩ := refuse_eq_ok_iff.1 h
    cases h
    rw [ne_eq, Decidable.not_not] at hsum
    rw [List.length_append, accountLength, checksumLength] at hshort hlong
    have hbody : (front ++ rest).take (front.length + accountLength) = front ++ rest.take 32 := by
      rw [List.take_length_add_append]
      rfl
    have hdrop : (front ++ rest).drop (front.length + accountLength) = rest.drop 32 := by
      rw [List.drop_length_add_append]
      rfl
    rw [hbody, hdrop] at hsum
    rw [hbody, List.drop_left]
    refine ⟨by rw [List.length_take]; omega, front, hfront, ?_⟩
    rw [textOf, hsum, List.append_assoc, List.take_append_drop]
    exact Base58.decode_eq_ok_iff.1 (mapError_eq_ok_iff.1 hdata)
  · rintro ⟨hlen, front, hfront, rfl⟩
    have htotal : (front ++ account ++ checksum (front ++ account)).length =
        front.length + accountLength + checksumLength := by
      simp [hlen, accountLength, checksumLength, Nat.add_assoc]
    have hbody : (front ++ account ++ checksum (front ++ account)).take
        (front.length + accountLength) = front ++ account :=
      List.take_left' (by simp [hlen, accountLength])
    have hdrop : (front ++ account ++ checksum (front ++ account)).drop
        (front.length + accountLength) = checksum (front ++ account) :=
      List.drop_left' (by simp [hlen, accountLength])
    have hread := networkOf_append hfront (account ++ checksum (front ++ account))
    rw [← List.append_assoc] at hread
    simp only [decode, textOf, Base58.decode_encode, Except.mapError, bind, Except.bind, hread,
      htotal, hbody, hdrop, Nat.lt_irrefl, if_false, ne_eq, not_true_eq_false, List.drop_left]

theorem decodeFor_eq_ok_iff {network : UInt16} {s : Text} {account : Bytes} :
    decodeFor network s = .ok account ↔
      account.length = 32 ∧ ∃ front, Names front network ∧ s = textOf front account := by
  rw [← decode_eq_ok_iff, decodeFor, bind_eq_ok_iff]
  constructor
  · rintro ⟨⟨number, found⟩, hs, h⟩
    obtain ⟨hnumber, h⟩ := refuse_eq_ok_iff.1 h
    cases h
    rwa [Decidable.not_not.1 hnumber] at hs
  · intro hs
    exact ⟨_, hs, refuse_eq_ok_iff.2 ⟨by simp, rfl⟩⟩

theorem encode_eq_ok_iff {network : UInt16} {account : Bytes} {s : Text} :
    encode network account = .ok s ↔
      account.length = 32 ∧ network ≤ maxNetwork ∧ s = textOf (networkBytes network) account := by
  rw [encode]
  by_cases hlen : account.length = accountLength
  · by_cases hmax : maxNetwork < network
    · have hle : ¬ network ≤ maxNetwork := UInt16.not_le.2 hmax
      simp [hlen, hmax, hle]
    · have hle : network ≤ maxNetwork := UInt16.not_lt.1 hmax
      rw [if_neg (by simp [hlen]), if_neg hmax]
      simp only [Except.ok.injEq, textOf]
      exact ⟨fun h => ⟨hlen, hle, h.symm⟩, fun h => h.2.2.symm⟩
  · rw [if_pos hlen]
    simp only [reduceCtorEq, false_iff, not_and]
    exact fun h => absurd h hlen

/-! ## The bytes of a network number -/

theorem toNat_firstByte (network : UInt16) :
    (((network &&& 0x00fc) >>> 2).toUInt8 ||| 0x40).toNat = 64 + network.toNat / 4 % 64 := by
  have hmask : (network.toNat &&& 252) >>> 2 = network.toNat / 4 % 64 := by
    rw [Nat.shiftRight_and_distrib, show 252 >>> 2 = 2 ^ 6 - 1 from rfl,
      Nat.and_two_pow_sub_one_eq_mod, Nat.shiftRight_eq_div_pow]
  have hlt : network.toNat / 4 % 64 < 2 ^ 6 := Nat.mod_lt _ (by decide)
  have hor := Nat.two_pow_add_eq_or_of_lt hlt 1
  rw [UInt8.toNat_or, UInt16.toNat_toUInt8, UInt16.toNat_shiftRight, UInt16.toNat_and]
  show (network.toNat &&& 252) >>> 2 % 256 ||| 64 = _
  rw [hmask, Nat.mod_eq_of_lt (by omega), Nat.or_comm]
  exact hor.symm

theorem toNat_secondByte {network : UInt16} (h : network.toNat < 16384) :
    ((network >>> 8).toUInt8 ||| ((network &&& 0x0003) <<< 6).toUInt8).toNat =
      64 * (network.toNat % 4) + network.toNat / 256 := by
  have hmask : network.toNat &&& 3 = network.toNat % 4 := Nat.and_two_pow_sub_one_eq_mod _ 2
  have hlt : network.toNat / 256 < 2 ^ 6 := by omega
  have hor := Nat.two_pow_add_eq_or_of_lt hlt (network.toNat % 4)
  rw [UInt8.toNat_or, UInt16.toNat_toUInt8, UInt16.toNat_toUInt8, UInt16.toNat_shiftRight,
    UInt16.toNat_shiftLeft, UInt16.toNat_and]
  show network.toNat >>> 8 % 256 ||| (network.toNat &&& 3) <<< 6 % 65536 % 256 = _
  rw [hmask, Nat.shiftRight_eq_div_pow, Nat.shiftLeft_eq, Nat.mod_eq_of_lt (by omega),
    Nat.mod_eq_of_lt (show network.toNat % 4 * 2 ^ 6 < 65536 by omega), Nat.mod_eq_of_lt (by omega),
    Nat.or_comm, Nat.mul_comm]
  exact hor.symm

/-- Two, six and six bits side by side. -/
theorem or_or_eq_add {a b c : Nat} (ha : a < 64) (hb : b < 4) (hc : c < 64) :
    (a * 4 ||| b) ||| (c <<< 8) % 65536 = c * 256 + (a * 4 + b) := by
  have hlow := Nat.two_pow_add_eq_or_of_lt (show b < 2 ^ 2 from hb) a
  have hboth := Nat.two_pow_add_eq_or_of_lt (show 2 ^ 2 * a + b < 2 ^ 8 by omega) c
  rw [Nat.shiftLeft_eq, Nat.mod_eq_of_lt (by omega), Nat.mul_comm a, Nat.mul_comm c,
    show 4 * a ||| b = 2 ^ 2 * a + b from hlow.symm, Nat.or_comm]
  exact hboth.symm.trans (by omega)

theorem toNat_wideNumber (first second : UInt8) :
    (wideNumber first second).toNat =
      second.toNat % 64 * 256 + (first.toNat % 64 * 4 + second.toNat / 64) := by
  have hfirst : (first <<< 2).toNat = first.toNat % 64 * 4 := by
    rw [UInt8.toNat_shiftLeft]
    show first.toNat <<< 2 % 256 = _
    rw [Nat.shiftLeft_eq]
    omega
  have hsecond : (second >>> 6).toNat = second.toNat / 64 := by
    rw [UInt8.toNat_shiftRight]
    show second.toNat >>> 6 = _
    rw [Nat.shiftRight_eq_div_pow]
  have hmask : (second &&& 0x3f).toNat = second.toNat % 64 := by
    rw [UInt8.toNat_and]
    exact Nat.and_two_pow_sub_one_eq_mod _ 6
  have hlt : second.toNat < 256 := UInt8.toNat_lt_size second
  rw [wideNumber, UInt16.toNat_or, UInt8.toNat_toUInt16, UInt8.toNat_or, hfirst, hsecond,
    UInt16.toNat_shiftLeft, UInt8.toNat_toUInt16, hmask]
  exact or_or_eq_add (by omega) (by omega) (by omega)

/-- The bits of a number, cut up as its two bytes hold them, join to the number. -/
theorem join_split {n : Nat} (h : n < 16384) :
    (64 * (n % 4) + n / 256) % 64 * 256 +
      ((64 + n / 4 % 64) % 64 * 4 + (64 * (n % 4) + n / 256) / 64) = n := by
  have htop : n / 256 < 64 := (Nat.div_lt_iff_lt_mul (by decide)).2 h
  have hlow : n / 4 % 64 * 4 + n % 4 = n % 256 := by
    rw [show 256 = 4 * 64 from rfl, Nat.mod_mul, Nat.add_comm, Nat.mul_comm]
  rw [Nat.mul_add_mod, Nat.mod_eq_of_lt htop, Nat.mul_add_div (by decide), Nat.div_eq_of_lt htop,
    Nat.add_zero, Nat.add_mod_left, Nat.mod_mod, hlow]
  exact Nat.div_add_mod' n 256

/-- The two bytes of a network number, also of one that fits into a single byte. -/
def longBytes (network : UInt16) : Bytes :=
  [((network &&& 0x00fc) >>> 2).toUInt8 ||| 0x40,
   (network >>> 8).toUInt8 ||| ((network &&& 0x0003) <<< 6).toUInt8]

theorem networkBytes_of_small {network : UInt16} (h : network < 64) :
    networkBytes network = [network.toUInt8] := by
  rw [networkBytes, if_pos h]

theorem networkBytes_of_large {network : UInt16} (h : ¬ network < 64) :
    networkBytes network = longBytes network := by
  rw [networkBytes, if_neg h]
  rfl

theorem names_longBytes {network : UInt16} (h : network ≤ maxNetwork) :
    Names (longBytes network) network := by
  have hlt : network.toNat < 16384 := Nat.lt_succ_of_le (UInt16.le_iff_toNat_le.1 h)
  rw [longBytes]
  generalize hf : ((network &&& 0x00fc) >>> 2).toUInt8 ||| 0x40 = first
  generalize hs : (network >>> 8).toUInt8 ||| ((network &&& 0x0003) <<< 6).toUInt8 = second
  have hfirst := toNat_firstByte network
  have hsecond := toNat_secondByte hlt
  rw [hf] at hfirst
  rw [hs] at hsecond
  have hnumber : wideNumber first second = network := by
    rw [← UInt16.toNat_inj, toNat_wideNumber, hfirst, hsecond]
    exact join_split hlt
  have hnot : ¬ first < 64 := by
    rw [UInt8.lt_iff_toNat_lt, hfirst]
    show ¬ 64 + network.toNat / 4 % 64 < 64
    omega
  have hbelow : first < 128 := by
    rw [UInt8.lt_iff_toNat_lt, hfirst]
    show 64 + network.toNat / 4 % 64 < 128
    omega
  have hnames := Names.wide second hnot hbelow
  rwa [hnumber] at hnames

/-- **The bytes that are written are read as the number.** -/
theorem names_networkBytes {network : UInt16} (h : network ≤ maxNetwork) :
    Names (networkBytes network) network := by
  by_cases hsmall : network < 64
  · have hbyte : network.toUInt8.toUInt16 = network := by
      rw [← UInt16.toNat_inj, UInt8.toNat_toUInt16, UInt16.toNat_toUInt8]
      have : network.toNat < 64 := hsmall
      omega
    have hfirst : network.toUInt8 < 64 := by
      rw [UInt8.lt_iff_toNat_lt, UInt16.toNat_toUInt8]
      have : network.toNat < 64 := hsmall
      show network.toNat % 256 < 64
      omega
    have hnames := Names.short hfirst
    rw [networkBytes_of_small hsmall]
    rwa [hbyte] at hnames
  · rw [networkBytes_of_large hsmall]
    exact names_longBytes h

/-- The bits that two bytes hold are cut out of the number that they join to. -/
theorem split_join {a b : Nat} (ha : a < 64) (hb : b < 4) (c : Nat) :
    (c * 256 + (a * 4 + b)) / 4 % 64 = a ∧ (c * 256 + (a * 4 + b)) % 4 = b ∧
      (c * 256 + (a * 4 + b)) / 256 = c := by
  refine ⟨?_, ?_, ?_⟩
  · omega
  · omega
  · omega

/-- Two bytes that are read as a number are the long form of that number. -/
theorem longBytes_wideNumber {first second : UInt8} (h : ¬ first < 64) (h' : first < 128) :
    wideNumber first second ≤ maxNetwork ∧
      longBytes (wideNumber first second) = [first, second] := by
  have hfirst : 64 ≤ first.toNat := Nat.le_of_not_lt h
  have hfirst' : first.toNat < 128 := h'
  have hsecond : second.toNat < 256 := UInt8.toNat_lt_size second
  have hnumber := toNat_wideNumber first second
  obtain ⟨hmid, hlow, htop⟩ := split_join (Nat.mod_lt first.toNat (show 0 < 64 by decide))
    (show second.toNat / 64 < 4 by omega) (second.toNat % 64)
  rw [← hnumber] at hmid hlow htop
  have hlt : (wideNumber first second).toNat < 16384 := by omega
  refine ⟨UInt16.le_iff_toNat_le.2 (Nat.le_of_lt_succ hlt), ?_⟩
  rw [longBytes, List.cons.injEq, List.cons.injEq, ← UInt8.toNat_inj, ← UInt8.toNat_inj,
    toNat_firstByte, toNat_secondByte hlt, hmid, hlow, htop]
  refine ⟨?_, ?_, rfl⟩
  · omega
  · omega

/-- **The bytes that are read as a number are those that are written for it,** and for a number
that fits into a single byte also its two bytes. -/
theorem names_iff {front : Bytes} {network : UInt16} :
    Names front network ↔ network ≤ maxNetwork ∧
      (front = networkBytes network ∨ network < 64 ∧ front = longBytes network) := by
  constructor
  · intro h
    cases h with
    | @short first hfirst =>
      have hsmall : first.toUInt16 < 64 := by
        rw [UInt16.lt_iff_toNat_lt, UInt8.toNat_toUInt16]
        exact hfirst
      have hmax : first.toUInt16 ≤ maxNetwork :=
        UInt16.le_of_lt (UInt16.lt_trans hsmall (by decide))
      refine ⟨hmax, .inl ?_⟩
      rw [networkBytes_of_small hsmall, UInt8.toUInt8_toUInt16]
    | @wide first second hlarge hbelow =>
      obtain ⟨hmax, hbytes⟩ := longBytes_wideNumber hlarge hbelow
      refine ⟨hmax, ?_⟩
      by_cases hsmall : wideNumber first second < 64
      · exact .inr ⟨hsmall, hbytes.symm⟩
      · rw [networkBytes_of_large hsmall]
        exact .inl hbytes.symm
  · rintro ⟨hmax, rfl | ⟨-, rfl⟩⟩
    · exact names_networkBytes hmax
    · exact names_longBytes hmax

/-- The bytes of network 0 have one short and one long form. -/
theorem eq_of_names_zero {front : Bytes} (h : Names front 0) :
    front = [0x00] ∨ front = [0x40, 0x00] := by
  obtain ⟨-, hshort | ⟨-, hlong⟩⟩ := names_iff.1 h
  · exact .inl hshort
  · exact .inr hlong

/-- In the short form, the text of network 0 starts with a digit for the zero byte. -/
theorem textOf_zero_short (account : Bytes) :
    textOf [0x00] account = '1' :: Base58.encode (account ++ checksum ([0x00] ++ account)) := by
  rw [textOf, List.append_assoc, List.singleton_append, Base58.encode_zero_cons]

/-- In the long form, it starts with `V` and has 49 characters. -/
theorem textOf_zero_long {account : Bytes} (h : account.length = 32) :
    ∃ tail, textOf [0x40, 0x00] account = 'V' :: tail ∧ tail.length = 48 := by
  have hrest : (account ++ checksum ([0x40, 0x00] ++ account)).length = 34 := by
    rw [List.length_append, h, length_checksum]
  rw [textOf, List.append_assoc]
  exact Base58.encode_eq_cons (d := 28) (by decide) (by decide) (by decide) (by decide)
    (by rw [hrest]; decide) (by rw [hrest]; decide)

/-- The two forms differ in length. -/
theorem length_textOf_zero_ne {account : Bytes} (h : account.length = 32) :
    (textOf [0x00] account).length ≠ (textOf [0x40, 0x00] account).length := by
  have hshort := Base58.length_encode_lt (account ++ checksum ([0x00] ++ account))
  obtain ⟨tail, htext, hlong⟩ := textOf_zero_long h
  rw [List.length_append, h, length_checksum] at hshort
  rw [textOf_zero_short, htext, List.length_cons, List.length_cons, hlong]
  omega

end CoinAddress.Ss58
