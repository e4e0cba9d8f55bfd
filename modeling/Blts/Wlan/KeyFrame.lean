import Blts.Fault

/-!
# EAPOL-Key frames

A received frame is the memory it was received into together with the number of
bytes received: the receive buffer is larger than the frame, and some of the
code reads past the frame.  `struct eapol_key_frame` is packed, so its fields
are byte ranges at fixed offsets; the sixteen and sixty-four bit ones are big
endian.

MIC computation, AES key unwrap and the pseudo random function are parameters
(`Crypto`) with the lengths of what they write.
-/

namespace Blts.Wlan

abbrev Bytes := List UInt8

/-- A big endian number. -/
def beNat (bytes : Bytes) : Nat :=
  bytes.foldl (fun n b => n * 256 + b.toNat) 0

/-- Bytes `off`, `off + 1`, …, `off + len - 1`. -/
def field (buf : Bytes) (off len : Nat) : Bytes :=
  (buf.drop off).take len

/-- `memcpy` of `src` to offset `off`, inside the buffer. -/
def overwrite (buf : Bytes) (off : Nat) (src : Bytes) : Bytes :=
  buf.take off ++ src ++ buf.drop (off + src.length)

/-- `sizeof (struct eapol_key_frame)`. -/
def sizeofKeyFrame : Nat := 99

/-- `sizeof(struct rsn_ie_hdr)`. -/
def sizeofRsnIeHdr : Nat := 4

/-- The receive buffer from the start of the frame, and `frame_len`. -/
structure RxFrame where
  buf : Bytes
  len : Nat
  fits : len ≤ buf.length

/-! ## Fields -/

def protocolVersion (buf : Bytes) : Bytes := field buf 0 1

def descType (buf : Bytes) : Nat := beNat (field buf 4 1)

def keyInfo (buf : Bytes) : Nat := beNat (field buf 5 2)

def keyReplayCounter (buf : Bytes) : Nat := beNat (field buf 9 8)

def keyNonce (buf : Bytes) : Bytes := field buf 17 32

def eapolKeyIv (buf : Bytes) : Bytes := field buf 49 16

def keyRsc (buf : Bytes) : Bytes := field buf 65 8

def keyMic (buf : Bytes) : Bytes := field buf 81 16

def keyDataLen (buf : Bytes) : Nat := beNat (field buf 97 2)

/-- `key_data`, as long as `key_data_len` says. -/
def keyData (buf : Bytes) : Bytes := field buf sizeofKeyFrame (keyDataLen buf)

/-- `host_to_be16`. -/
def be16 (n : Nat) : Bytes := [UInt8.ofNat (n / 256), UInt8.ofNat n]

/-! ## Key information bits -/

/-- `EAPOL_KEY_TYPE_RSN`. -/
def eapolKeyTypeRsn : Nat := 2

/-- `(ki & WPA_KEY_INFO_TYPE_MASK) == WPA_KEY_INFO_TYPE_HMAC_SHA1_AES`. -/
def keyInfoHmacSha1Aes (ki : Nat) : Bool := ki % 8 == 2

def keyInfoKeyType (ki : Nat) : Bool := ki.testBit 3

def keyInfoInstall (ki : Nat) : Bool := ki.testBit 6

def keyInfoAck (ki : Nat) : Bool := ki.testBit 7

def keyInfoMic (ki : Nat) : Bool := ki.testBit 8

def keyInfoSecure (ki : Nat) : Bool := ki.testBit 9

def keyInfoError (ki : Nat) : Bool := ki.testBit 10

def keyInfoRequest (ki : Nat) : Bool := ki.testBit 11

def keyInfoEncrKeyData (ki : Nat) : Bool := ki.testBit 12

def keyInfoSmkMessage (ki : Nat) : Bool := ki.testBit 13

/-- `is_bitfield_zero`. -/
def isBitfieldZero (bytes : Bytes) : Bool := bytes.all (· == 0)

/-- `is_4way_msg_1`. -/
def is4wayMsg1 (buf : Bytes) : Bool :=
  let ki := keyInfo buf
  if descType buf != eapolKeyTypeRsn then false
  else if !(keyInfoHmacSha1Aes ki && keyInfoKeyType ki && keyInfoAck ki &&
      !keyInfoMic ki && !keyInfoSecure ki && !keyInfoError ki &&
      !keyInfoRequest ki && !keyInfoEncrKeyData ki && !keyInfoSmkMessage ki)
  then false
  else isBitfieldZero (eapolKeyIv buf) && isBitfieldZero (keyRsc buf) &&
    isBitfieldZero (keyMic buf)

/-- The key information that `is_4way_msg_3` asks for. -/
def keyInfoMsg3 (ki : Nat) : Bool :=
  keyInfoHmacSha1Aes ki && keyInfoKeyType ki && keyInfoAck ki &&
    keyInfoMic ki && keyInfoSecure ki && !keyInfoError ki &&
    !keyInfoRequest ki && keyInfoEncrKeyData ki && !keyInfoSmkMessage ki

/-- The key information that `is_group_hs_msg_1` asks for. -/
def keyInfoGroupMsg1 (ki : Nat) : Bool :=
  keyInfoHmacSha1Aes ki && !keyInfoKeyType ki && !keyInfoSmkMessage ki &&
    !keyInfoInstall ki && keyInfoAck ki && keyInfoMic ki &&
    keyInfoSecure ki && !keyInfoError ki && !keyInfoRequest ki &&
    keyInfoEncrKeyData ki

/-! ## Cryptography -/

/-- The primitives, with the lengths of what they write. -/
structure Crypto where
  /-- `wpa_eapol_key_mic` of a key and the bytes of a frame; `none` is an
  error. -/
  wpaEapolKeyMic : Bytes → Bytes → Option Bytes
  /-- `aes_unwrap` of a key encryption key and a cipher text. -/
  aesUnwrap : Bytes → Bytes → Option Bytes
  /-- `sha1_prf` of a key, a label, data and an output length. -/
  sha1Prf : Bytes → String → Bytes → Nat → Bytes
  mic_length : ∀ key data mic, wpaEapolKeyMic key data = some mic →
    mic.length = 16
  unwrap_length : ∀ kek cipher plain, aesUnwrap kek cipher = some plain →
    plain.length + 8 = cipher.length

/-- `memcmp(a, b, n) < 0` for two fields of one length. -/
def memcmpLt : Bytes → Bytes → Bool
  | a :: as, b :: bs => a < b || (a == b && memcmpLt as bs)
  | _, _ => false

/-- `wpa_pmk_to_ptk`. -/
def wpaPmkToPtk (c : Crypto) (pmk : Bytes) (label : String)
    (addr1 addr2 nonce1 nonce2 : Bytes) (ptkLen : Nat) : Bytes :=
  let addrs := if memcmpLt addr1 addr2 then addr1 ++ addr2 else addr2 ++ addr1
  let nonces :=
    if memcmpLt nonce1 nonce2 then nonce1 ++ nonce2 else nonce2 ++ nonce1
  c.sha1Prf pmk label (addrs ++ nonces) ptkLen

/-- The part of the PTK that keys the MIC. -/
def ptkKck (ptk : Bytes) : Bytes := field ptk 0 16

/-- The part of the PTK that unwraps key data. -/
def ptkKek (ptk : Bytes) : Bytes := field ptk 16 16

/-- The part of the PTK that is installed. -/
def ptkTk (ptk : Bytes) : Bytes := field ptk 32 16

/-- `eapol_key_frame_mic_ok`: the MIC of the received bytes, computed with the
MIC field cleared, is the one in the frame. -/
def eapolKeyFrameMicOk (c : Crypto) (ptk : Bytes) (f : RxFrame) : Bool :=
  let cleared := overwrite f.buf 81 (List.replicate 16 0)
  match c.wpaEapolKeyMic (ptkKck ptk) (cleared.take f.len) with
  | none => false
  | some mic => keyMic f.buf == mic

/-- `wpa_decrypt_eapol_key_data`: the buffer with the key data decrypted, or
`none` where the source returns an error.  The length is a `u16`, also where
eight is subtracted from it. -/
def wpaDecryptEapolKeyData (c : Crypto) (ptk : Bytes) (buf : Bytes) :
    Except Fault (Option Bytes) :=
  let keydatalen := keyDataLen buf
  if keydatalen % 8 ≠ 0 then .ok none
  else
    let plainLen := (keydatalen + 65536 - 8) % 65536
    let cipherLen := (plainLen / 8 + 1) * 8
    if buf.length < sizeofKeyFrame + cipherLen then .error .outOfBounds
    else
      match c.aesUnwrap (ptkKek ptk) (field buf sizeofKeyFrame cipherLen) with
      | none => .ok none
      | some plain =>
          .ok (some (overwrite (overwrite buf sizeofKeyFrame plain) 97
            (be16 plainLen)))

/-! ## Information elements -/

/-- The members of `struct wpa_eapol_ie_parse` that the state machine uses: a
pointer with a length is the bytes it points to. -/
structure WpaEapolIeParse where
  rsnIe : Option Bytes
  gtk : Option Bytes
  deriving DecidableEq

/-- `WLAN_EID_RSN`. -/
def wlanEidRsn : Nat := 48

/-- `WLAN_EID_VENDOR_SPECIFIC`. -/
def wlanEidVendorSpecific : Nat := 221

/-- `WPA_OUI_TYPE`. -/
def wpaOuiType : Bytes := [0x00, 0x50, 0xf2, 1]

/-- `RSN_KEY_DATA_PMKID`. -/
def rsnKeyDataPmkid : Bytes := [0x00, 0x0f, 0xac, 4]

/-- `RSN_KEY_DATA_GROUPKEY`. -/
def rsnKeyDataGroupkey : Bytes := [0x00, 0x0f, 0xac, 1]

/-- `wpa_parse_generic` on an element with the given length byte and body, in a
buffer that goes on for `rest` bytes from the element on.  The branches for
other selectors fill members that nothing reads. -/
def wpaParseGeneric (len : Nat) (body : Bytes) (rest : Nat)
    (ie : WpaEapolIeParse) : WpaEapolIeParse :=
  let selector := body.take 4
  if 6 ≤ len ∧ selector = wpaOuiType ∧ field body 4 2 = [1, 0] then ie
  else if 5 < rest ∧ 20 ≤ len ∧ selector = rsnKeyDataPmkid then ie
  else if 6 < len ∧ selector = rsnKeyDataGroupkey then
    { ie with gtk := some (field body 4 (len - 4)) }
  else ie

/-- The loop of `wpa_supplicant_parse_ies`, `rest` being the bytes from `pos`
to `end`.  Every round moves on by at least two bytes, so as many rounds as
there are bytes are enough. -/
def parseIesLoop (rounds : Nat) (rest : Bytes) (ie : WpaEapolIeParse) :
    WpaEapolIeParse :=
  match rounds, rest with
  | rounds + 1, eid :: len :: body =>
      let len := len.toNat
      if eid.toNat = wlanEidVendorSpecific ∧ len = 0 then ie
      else if rest.length < 2 + len then ie
      else if eid.toNat = wlanEidRsn then
        parseIesLoop rounds (body.drop len)
          { ie with rsnIe := some (rest.take (2 + len)) }
      else if eid.toNat = wlanEidVendorSpecific then
        parseIesLoop rounds (body.drop len)
          (wpaParseGeneric len (body.take len) rest.length ie)
      else parseIesLoop rounds (body.drop len) ie
  | _, _ => ie

/-- `wpa_supplicant_parse_ies`; its result code is ignored by every caller. -/
def wpaSupplicantParseIes (data : Bytes) : WpaEapolIeParse :=
  parseIesLoop data.length data { rsnIe := none, gtk := none }

end Blts.Wlan
