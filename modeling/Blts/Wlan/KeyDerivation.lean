import Blts.Lib.Hmac
import Blts.Wlan.EapolRuns
import Blts.Wlan.Sha1

/-!
# Key derivation of `wlan-core-crypto.c`

`hmac_sha1_vector` is HMAC-SHA1 of a message in pieces, and `sha1_prf` and `pbkdf2_sha1` call
it block after block.  What they write is what the standards derive from the same key, label,
data, passphrase and SSID, whatever the length.  The two sides of a handshake derive one PTK.
-/

namespace Blts.Wlan

open Blts.Lib

/-! ## The source -/

/-- `SHA1_MAC_LEN`. -/
def sha1MacLen : Nat := 20

/-- The key that `hmac_sha1_vector` goes on with. -/
def hmacShortKey (key : Bytes) : Except Fault Bytes :=
  if 64 < key.length then sha1Vector [key] else .ok key

/-- `hmac_sha1_vector`: the digest, or `none` where it returns -1. -/
def hmacSha1Vector (key : Bytes) (pieces : List Bytes) : Except Fault (Option Bytes) :=
  if 5 < pieces.length then .ok none
  else do
    let key ← hmacShortKey key
    let kPad := overwrite (List.replicate 64 0) 0 key
    let mac ← sha1Vector (kPad.map (· ^^^ 0x36) :: pieces)
    let mac ← sha1Vector [kPad.map (· ^^^ 0x5c), mac]
    return some mac

/-- `hmac_sha1`. -/
def hmacSha1 (key data : Bytes) : Except Fault (Option Bytes) :=
  hmacSha1Vector key [data]

/-- The loop of `sha1_prf`, with what it writes. -/
def sha1PrfLoop (key label data : Bytes) : Nat → UInt8 → Nat → Except Fault (Option Bytes)
  | 0, _, _ => .ok (some [])
  | rounds + 1, counter, left =>
      if left = 0 then .ok (some [])
      else do
        match ← hmacSha1Vector key [label ++ [0], data, [counter]] with
        | none => return none
        | some hash =>
            if sha1MacLen ≤ left then
              match ← sha1PrfLoop key label data rounds (counter + 1) (left - sha1MacLen) with
              | none => return none
              | some rest => return some (hash ++ rest)
            else return some (hash.take left)

/-- `sha1_prf` of a C string: every round but the last writes twenty bytes, so as many rounds
as there are bytes are enough. -/
def sha1Prf (key label data : Bytes) (bufLen : Nat) : Except Fault (Option Bytes) :=
  sha1PrfLoop key label data bufLen 0 bufLen

/-- `wpa_eapol_key_mic` of the version that the state machine asks for. -/
def wpaEapolKeyMic (key buf : Bytes) : Except Fault (Option Bytes) := do
  match ← hmacSha1 (key.take 16) buf with
  | none => return none
  | some hash => return some (hash.take 16)

/-- The loop of `pbkdf2_sha1_f` over `tmp` and `digest`. -/
def pbkdf2Iterate (passphrase : Bytes) : Nat → Bytes → Bytes → Except Fault (Option Bytes)
  | 0, _, digest => .ok (some digest)
  | rounds + 1, tmp, digest => do
      match ← hmacSha1 passphrase tmp with
      | none => return none
      | some tmp2 => pbkdf2Iterate passphrase rounds tmp2 (xorBytes digest tmp2)

/-- `pbkdf2_sha1_f`. -/
def pbkdf2Sha1F (passphrase ssid : Bytes) (iterations count : Nat) :
    Except Fault (Option Bytes) := do
  let countBuf := [24, 16, 8, 0].map fun shift => UInt8.ofNat ((count % 4294967296) >>> shift)
  match ← hmacSha1Vector passphrase [ssid, countBuf] with
  | none => return none
  | some tmp => pbkdf2Iterate passphrase (iterations - 1) tmp tmp

/-- The loop of `pbkdf2_sha1`, with what it writes. -/
def pbkdf2Loop (passphrase ssid : Bytes) (iterations : Nat) :
    Nat → Nat → Nat → Except Fault (Option Bytes)
  | 0, _, _ => .ok (some [])
  | rounds + 1, count, left =>
      if left = 0 then .ok (some [])
      else do
        match ← pbkdf2Sha1F passphrase ssid iterations (count + 1) with
        | none => return none
        | some digest =>
            let plen := if sha1MacLen < left then sha1MacLen else left
            match ← pbkdf2Loop passphrase ssid iterations rounds (count + 1) (left - plen) with
            | none => return none
            | some rest => return some (digest.take plen ++ rest)

/-- `pbkdf2_sha1`. -/
def pbkdf2Sha1 (passphrase ssid : Bytes) (iterations buflen : Nat) :
    Except Fault (Option Bytes) :=
  pbkdf2Loop passphrase ssid iterations buflen 0 buflen

/-- `wpa_derive_ccmp_pmk`. -/
def wpaDeriveCcmpPmk (passphrase ssid : Bytes) : Except Fault (Option Bytes) :=
  pbkdf2Sha1 passphrase ssid 4096 32

/-! ## HMAC -/

/-- HMAC-SHA1, by the standard. -/
def hmacOfSha1 (key message : Bytes) : Bytes := hmac Sha1.hash 64 key message

@[simp] theorem length_hmacOfSha1 (key message : Bytes) :
    (hmacOfSha1 key message).length = sha1MacLen := Sha1.length_hash _

/-- **`hmac_sha1_vector`** is HMAC-SHA1 of the pieces, of which there are at most five. -/
theorem hmacSha1Vector_eq {key : Bytes} (hkey : key.length + 63 < 4294967296)
    {pieces : List Bytes} (hcount : pieces.length ≤ 5)
    (hpieces : ∀ piece ∈ pieces, piece.length + 63 < 4294967296) :
    hmacSha1Vector key pieces = .ok (some (hmacOfSha1 key pieces.flatten)) := by
  have hshort : hmacShortKey key = .ok (if 64 < key.length then Sha1.hash key else key) := by
    rw [hmacShortKey]
    by_cases hlong : 64 < key.length
    · rw [if_pos hlong, if_pos hlong, sha1Vector_hash (by simpa using hkey)]
      simp
    · rw [if_neg hlong, if_neg hlong]
  have hle : (if 64 < key.length then Sha1.hash key else key).length ≤ 64 := by
    by_cases hlong : 64 < key.length
    · rw [if_pos hlong, Sha1.length_hash]
      decide
    · rw [if_neg hlong]
      exact Nat.not_lt.mp hlong
  have hpad : overwrite (List.replicate 64 0) 0 (if 64 < key.length then Sha1.hash key else key) =
      hmacKey Sha1.hash 64 key := by
    rw [overwrite, List.take_zero, List.nil_append, List.drop_replicate, hmacKey, Nat.zero_add]
  have hlength : (hmacKey Sha1.hash 64 key).length = 64 := by
    rw [hmacKey]
    simp only [List.length_append, List.length_replicate]
    omega
  have hinner : ∀ piece ∈ (hmacKey Sha1.hash 64 key).map (· ^^^ 0x36) :: pieces,
      piece.length + 63 < 4294967296 := by
    intro piece hpiece
    rcases List.mem_cons.mp hpiece with rfl | hpiece
    · rw [List.length_map, hlength]
      decide
    · exact hpieces piece hpiece
  unfold hmacSha1Vector
  rw [if_neg (by omega), hshort]
  simp only [ok_bind, hpad]
  rw [sha1Vector_hash hinner]
  simp only [ok_bind]
  rw [sha1Vector_hash]
  · simp only [ok_bind, List.flatten_cons, List.flatten_nil, List.append_nil]
    rfl
  · simp [hlength]

theorem hmacSha1_eq {key data : Bytes} (hkey : key.length + 63 < 4294967296)
    (hdata : data.length + 63 < 4294967296) :
    hmacSha1 key data = .ok (some (hmacOfSha1 key data)) := by
  rw [hmacSha1, hmacSha1Vector_eq hkey (by simp) (by simpa using hdata), List.flatten_singleton]

/-- **`wpa_eapol_key_mic`** is a prefix of the HMAC of a frame. -/
theorem wpaEapolKeyMic_eq (key : Bytes) {buf : Bytes} (hbuf : buf.length + 63 < 4294967296) :
    wpaEapolKeyMic key buf = .ok (some ((hmacOfSha1 (key.take 16) buf).take 16)) := by
  have hkey : (key.take 16).length + 63 < 4294967296 := by
    rw [List.length_take]
    omega
  rw [wpaEapolKeyMic, hmacSha1_eq hkey hbuf]
  rfl

/-! ## The pseudo random function -/

theorem sha1PrfLoop_eq {key label data : Bytes} (hkey : key.length + 63 < 4294967296)
    (hlabel : label.length + 64 < 4294967296) (hdata : data.length + 63 < 4294967296) :
    ∀ {rounds : Nat} (counter left : Nat), left ≤ rounds →
      sha1PrfLoop key label data rounds (UInt8.ofNat counter) left =
        .ok (some (derive sha1MacLen (fun i => hmacOfSha1 key
          (label ++ [0] ++ data ++ [UInt8.ofNat (counter + i)])) left)) := by
  intro rounds
  induction rounds with
  | zero =>
      intro counter left h
      rw [Nat.le_zero.mp h, derive_zero]
      rfl
  | succ rounds ih =>
      intro counter left h
      have hpieces : ∀ piece ∈ [label ++ [0], data, [UInt8.ofNat counter]],
          piece.length + 63 < 4294967296 := by
        simp only [List.mem_cons, List.not_mem_nil, or_false, forall_eq_or_imp, forall_eq,
          List.length_append, List.length_singleton]
        omega
      have hmac := hmacSha1Vector_eq hkey (by simp) hpieces
      have hflatten : [label ++ [0], data, [UInt8.ofNat counter]].flatten =
          label ++ [0] ++ data ++ [UInt8.ofNat counter] := by
        simp
      rw [hflatten] at hmac
      rw [sha1PrfLoop]
      by_cases hzero : left = 0
      · rw [if_pos hzero, hzero, derive_zero]
      rw [if_neg hzero, hmac, ok_bind]
      by_cases hfull : sha1MacLen ≤ left
      · have hcounter : UInt8.ofNat counter + 1 = UInt8.ofNat (counter + 1) := by
          rw [UInt8.ofNat_add]
          rfl
        have hleft : left - sha1MacLen ≤ rounds := by
          unfold sha1MacLen
          omega
        simp only [if_pos hfull, hcounter, ih (counter + 1) _ hleft, ok_bind]
        rw [derive_of_ge (length_hmacOfSha1 _ _) (by decide) hfull]
        simp only [Nat.add_zero, Nat.add_assoc, Nat.add_comm 1]
        rfl
      · simp only [if_neg hfull]
        rw [derive_of_le (Nat.pos_of_ne_zero hzero) (Nat.le_of_lt (Nat.not_le.mp hfull)),
          Nat.add_zero]
        rfl

/-- **`sha1_prf`** is the pseudo random function, for every length. -/
theorem sha1Prf_eq {key label data : Bytes} (hkey : key.length + 63 < 4294967296)
    (hlabel : label.length + 64 < 4294967296) (hdata : data.length + 63 < 4294967296)
    (bufLen : Nat) :
    sha1Prf key label data bufLen =
      .ok (some (prf hmacOfSha1 sha1MacLen key label data bufLen)) := by
  have h := sha1PrfLoop_eq hkey hlabel hdata 0 bufLen (Nat.le_refl bufLen)
  simp only [Nat.zero_add] at h
  exact h

/-- Sixty-four bytes: three whole blocks and a part of the fourth. -/
theorem sha1Prf_prefix : sha1Prf (List.replicate 20 0xaa) [112, 114, 101] (List.replicate 50 0xdd)
    64 = .ok (some (prf hmacOfSha1 sha1MacLen (List.replicate 20 0xaa) [112, 114, 101]
      (List.replicate 50 0xdd) 64)) :=
  sha1Prf_eq (by decide) (by decide) (by decide) 64

/-! ## PBKDF2 -/

theorem pbkdf2Iterate_eq {passphrase : Bytes} (hpass : passphrase.length + 63 < 4294967296)
    (first : Bytes) : ∀ {rounds : Nat} (done : Nat) {tmp : Bytes},
      tmp = (hmacOfSha1 passphrase)^[done] first → tmp.length = sha1MacLen →
        pbkdf2Iterate passphrase rounds tmp (xorIterates (hmacOfSha1 passphrase) first done) =
          .ok (some (xorIterates (hmacOfSha1 passphrase) first (done + rounds))) := by
  intro rounds
  induction rounds with
  | zero =>
      intro done tmp _ _
      rfl
  | succ rounds ih =>
      intro done tmp htmp hlength
      have hnext : hmacOfSha1 passphrase tmp = (hmacOfSha1 passphrase)^[done + 1] first := by
        rw [Function.iterate_succ_apply', ← htmp]
      have hsum : xorBytes (xorIterates (hmacOfSha1 passphrase) first done)
          (hmacOfSha1 passphrase tmp) =
            xorIterates (hmacOfSha1 passphrase) first (done + 1) := by
        rw [hnext, xorIterates, xorIterates, List.range_succ, List.foldl_append]
        rfl
      rw [pbkdf2Iterate, hmacSha1_eq hpass (by rw [hlength]; decide), ok_bind]
      simp only [hsum]
      rw [ih (done + 1) hnext (length_hmacOfSha1 _ _), Nat.add_right_comm, Nat.add_assoc]

/-- The number of a block as four bytes. -/
theorem countBuf_eq (count : Nat) :
    ([24, 16, 8, 0].map fun shift => UInt8.ofNat ((count % 4294967296) >>> shift)) =
      (leBytes 4 count).reverse := by
  simp only [List.map_cons, List.map_nil, leBytes, List.reverse_cons, List.reverse_nil,
    List.nil_append, List.cons_append, Nat.shiftRight_eq_div_pow, List.cons.injEq, and_true]
  refine ⟨?_, ?_, ?_, ?_⟩ <;> apply ofNat_eq_of_mod <;> simp <;> omega

theorem length_xorIterates {f : Bytes → Bytes} {size : Nat} (hf : ∀ b, (f b).length = size)
    {first : Bytes} (hfirst : first.length = size) (count : Nat) :
    (xorIterates f first count).length = size := by
  induction count with
  | zero => exact hfirst
  | succ count ih =>
      have hlast : (f^[count + 1] first).length = size := by
        rw [Function.iterate_succ_apply']
        exact hf _
      rw [xorIterates, List.range_succ, List.foldl_append]
      show (xorBytes (xorIterates f first count) (f^[count + 1] first)).length = size
      rw [xorBytes, List.length_zipWith, ih, hlast, Nat.min_self]

/-- **`pbkdf2_sha1_f`** is a block of PBKDF2. -/
theorem pbkdf2Sha1F_eq {passphrase ssid : Bytes} (hpass : passphrase.length + 63 < 4294967296)
    (hssid : ssid.length + 63 < 4294967296) (iterations count : Nat) :
    pbkdf2Sha1F passphrase ssid iterations count =
      .ok (some (xorIterates (hmacOfSha1 passphrase)
        (hmacOfSha1 passphrase (ssid ++ (leBytes 4 count).reverse)) (iterations - 1))) := by
  have hpieces : ∀ piece ∈ [ssid, (leBytes 4 count).reverse],
      piece.length + 63 < 4294967296 := by
    simp only [List.mem_cons, List.not_mem_nil, or_false, forall_eq_or_imp, forall_eq,
      List.length_reverse, length_leBytes]
    exact ⟨hssid, by decide⟩
  have hmac := hmacSha1Vector_eq hpass (by simp) hpieces
  have hloop := @pbkdf2Iterate_eq passphrase hpass
    (hmacOfSha1 passphrase (ssid ++ (leBytes 4 count).reverse)) (iterations - 1) 0 _ rfl
    (length_hmacOfSha1 _ _)
  rw [List.flatten_cons, List.flatten_singleton] at hmac
  rw [Nat.zero_add] at hloop
  rw [pbkdf2Sha1F, countBuf_eq]
  simp only [hmac, ok_bind]
  exact hloop

theorem pbkdf2Loop_eq {passphrase ssid : Bytes} (hpass : passphrase.length + 63 < 4294967296)
    (hssid : ssid.length + 63 < 4294967296) (iterations : Nat) :
    ∀ {rounds : Nat} (count left : Nat), left ≤ rounds →
      pbkdf2Loop passphrase ssid iterations rounds count left =
        .ok (some (derive sha1MacLen (fun i => xorIterates (hmacOfSha1 passphrase)
          (hmacOfSha1 passphrase (ssid ++ (leBytes 4 (count + i + 1)).reverse))
            (iterations - 1)) left)) := by
  intro rounds
  induction rounds with
  | zero =>
      intro count left h
      rw [Nat.le_zero.mp h, derive_zero]
      rfl
  | succ rounds ih =>
      intro count left h
      rw [pbkdf2Loop]
      by_cases hzero : left = 0
      · rw [if_pos hzero, hzero, derive_zero]
      have hlength (i : Nat) := length_xorIterates (length_hmacOfSha1 passphrase)
        (length_hmacOfSha1 passphrase (ssid ++ (leBytes 4 (count + i + 1)).reverse))
        (iterations - 1)
      rw [if_neg hzero, pbkdf2Sha1F_eq hpass hssid, ok_bind]
      by_cases hmore : sha1MacLen < left
      · have hleft : left - sha1MacLen ≤ rounds := by
          unfold sha1MacLen
          omega
        have hindex (i : Nat) : count + 1 + i + 1 = count + (i + 1) + 1 := by omega
        simp only [if_pos hmore, ih (count + 1) _ hleft, ok_bind, hindex]
        rw [derive_of_ge (hlength 0) (by decide) (Nat.le_of_lt hmore),
          List.take_of_length_le (Nat.le_of_eq (hlength 0))]
        rfl
      · simp only [if_neg hmore, Nat.sub_self, ih (count + 1) 0 (Nat.zero_le _), ok_bind,
          derive_zero, List.append_nil]
        rw [derive_of_le (Nat.pos_of_ne_zero hzero) (Nat.not_lt.mp hmore), Nat.add_zero]
        rfl

/-- **`pbkdf2_sha1`** is PBKDF2, for every number of iterations and every length. -/
theorem pbkdf2Sha1_eq {passphrase ssid : Bytes} (hpass : passphrase.length + 63 < 4294967296)
    (hssid : ssid.length + 63 < 4294967296) (iterations buflen : Nat) :
    pbkdf2Sha1 passphrase ssid iterations buflen =
      .ok (some (pbkdf2 hmacOfSha1 sha1MacLen passphrase ssid iterations buflen)) := by
  have h := pbkdf2Loop_eq hpass hssid iterations 0 buflen (Nat.le_refl buflen)
  simp only [Nat.zero_add] at h
  exact h

/-- The key of a passphrase of eight characters. -/
theorem pbkdf2Sha1_eight :
    pbkdf2Sha1 [97, 98, 99, 100, 101, 102, 103, 104] [66, 76, 84, 83] 4096 32 =
      .ok (some (pbkdf2 hmacOfSha1 sha1MacLen [97, 98, 99, 100, 101, 102, 103, 104]
        [66, 76, 84, 83] 4096 32)) :=
  pbkdf2Sha1_eq (by decide) (by decide) 4096 32

/-! ## The transient key -/

/-- Two fields of one length are equal, or one of them is less. -/
theorem memcmpLt_total : ∀ {as bs : Bytes}, as.length = bs.length →
    as = bs ∨ memcmpLt as bs = !memcmpLt bs as
  | [], [], _ => .inl rfl
  | a :: as, b :: bs, h => by
      rcases Nat.lt_trichotomy a.toNat b.toNat with hlt | heq | hgt
      · have hne : ¬ b < a ∧ ¬ b = a := ⟨by rw [UInt8.lt_iff_toNat_lt]; omega, by rintro rfl; omega⟩
        exact .inr (by simp [memcmpLt, UInt8.lt_iff_toNat_lt.mpr hlt, hne])
      · obtain rfl := UInt8.toNat_inj.mp heq
        rcases memcmpLt_total (Nat.succ.inj h) with rfl | hrest
        · exact .inl rfl
        · exact .inr (by simp [memcmpLt, hrest])
      · have hne : ¬ a < b ∧ ¬ a = b := ⟨by rw [UInt8.lt_iff_toNat_lt]; omega, by rintro rfl; omega⟩
        exact .inr (by simp [memcmpLt, UInt8.lt_iff_toNat_lt.mpr hgt, hne])

/-- **Both sides derive one PTK**: the authenticator, which sees the addresses and the nonces the
other way round, gets the key of the station. -/
theorem wpaPmkToPtk_comm (c : Crypto) (pmk : Bytes) (label : String)
    {addr1 addr2 nonce1 nonce2 : Bytes} (haddr : addr1.length = addr2.length)
    (hnonce : nonce1.length = nonce2.length) (ptkLen : Nat) :
    wpaPmkToPtk c pmk label addr1 addr2 nonce1 nonce2 ptkLen =
      wpaPmkToPtk c pmk label addr2 addr1 nonce2 nonce1 ptkLen := by
  have hcomm {as bs : Bytes} (h : as.length = bs.length) :
      (if memcmpLt as bs then as ++ bs else bs ++ as) =
        if memcmpLt bs as then bs ++ as else as ++ bs := by
    rcases memcmpLt_total h with rfl | hlt
    · rfl
    · rw [hlt]
      cases memcmpLt bs as <;> rfl
  unfold wpaPmkToPtk
  rw [hcomm haddr, hcomm hnonce]

/-- A station and an access point. -/
theorem wpaPmkToPtk_comm_plain : wpaPmkToPtk plainCrypto [1] "" [2, 0] [1, 9] [7] [3] 48 =
    wpaPmkToPtk plainCrypto [1] "" [1, 9] [2, 0] [3] [7] 48 :=
  @wpaPmkToPtk_comm plainCrypto [1] "" [2, 0] [1, 9] [7] [3] rfl rfl 48

end Blts.Wlan
