import Lnvps.Lib.Bytes
import Lnvps.Lib.Outcome
import Lnvps.Lib.Text

/-! # Encrypted columns -/

namespace Lnvps

open Outcome Text Bytes

structure Crypto where
 sha256 : List UInt8 → Vector UInt8 32
 keystream : Vector UInt8 32 → List UInt8 → ℕ → UInt8
 tag : Vector UInt8 32 → List UInt8 → List UInt8 → Vector UInt8 16

structure EncryptionContext where
 key : Vector UInt8 32

namespace EncryptionContext

variable (crypto : Crypto) (ctx : EncryptionContext)

def keyId : List Char := hex ((crypto.sha256 ctx.key.toList).toList.take 4)

def mask (nonce bytes : List UInt8) : List UInt8 :=
 bytes.mapIdx fun i b => b ^^^ crypto.keystream ctx.key nonce i

def encryptBytes (nonce plaintext : List UInt8) : List UInt8 :=
 let masked := ctx.mask crypto nonce plaintext
 masked ++ (crypto.tag ctx.key nonce masked).toList

def decryptBytes (nonce ciphertext : List UInt8) : Except String (List UInt8) := do
 ensure (16 ≤ ciphertext.length) "aead::Error"
 let masked := ciphertext.take (ciphertext.length - 16)
 ensure (ciphertext.drop (ciphertext.length - 16) = (crypto.tag ctx.key nonce masked).toList) "aead::Error"
 .ok (ctx.mask crypto nonce masked)

def encrypt (nonce : Vector UInt8 12) (plaintext : List Char) : List Char :=
 "ENC1:".toList ++ (ctx.keyId crypto ++ ':' ::
  Alphabet.standard.encode true (nonce.toList ++ ctx.encryptBytes crypto nonce.toList (utf8 plaintext)))

def base64Data (encrypted : List Char) : Except String (List Char) :=
 match encrypted.dropPrefix? "ENC1:".toList with
 | some rest => do
  let (keyId, data) ← ofOption "Malformed ENC1 ciphertext: missing key id separator" (splitOnce (· = ':') rest)
  ensure (keyId = ctx.keyId crypto) ("Ciphertext was encrypted with key id '" ++ String.ofList keyId ++
   "' but the loaded key has id '" ++ String.ofList (ctx.keyId crypto) ++ "'")
  .ok data
 | none => ofOption "String is not encrypted, cant decrypt" (encrypted.dropPrefix? "ENC:".toList)

def decrypt (encrypted : List Char) : Except String (List Char) := do
 let data ← ctx.base64Data crypto encrypted
 let bytes ← ofOption "Invalid base64 encoding: " (Alphabet.standard.decode true data)
 ensure (12 ≤ bytes.length) "Invalid encrypted data: too short"
 let plaintext ← Except.mapError ("Decryption failed: " ++ ·)
  (ctx.decryptBytes crypto (bytes.take 12) (bytes.drop 12))
 ofOption "Invalid UTF-8 in decrypted data: " (fromUtf8 plaintext)

def isEncrypted (data : List Char) : Bool := "ENC:".toList.isPrefixOf data || "ENC1:".toList.isPrefixOf data

end EncryptionContext

namespace EncryptedString

open EncryptionContext

variable {crypto : Crypto} {ctx : EncryptionContext} {s t : List Char}

def encode (crypto : Crypto) (context : Option EncryptionContext) (nonce : Vector UInt8 12) (plaintext : List Char) :
  List Char :=
 match context with
 | some ctx => ctx.encrypt crypto nonce plaintext
 | none => plaintext

def decode (crypto : Crypto) (context : Option EncryptionContext) (stored : List Char) :
  Except String (List Char) :=
 if isEncrypted stored then do
  let ctx ← ofOption "Encryption context not initialized: Encryption context not initialized" context
  Except.mapError ("Failed to decrypt string: " ++ ·) (ctx.decrypt crypto stored)
 else .ok stored

theorem colon_notMem_keyId : ':' ∉ ctx.keyId crypto := fun h => absurd (mem_hex h) (by decide)

@[simp] theorem mask_mask (nonce bytes : List UInt8) :
  ctx.mask crypto nonce (ctx.mask crypto nonce bytes) = bytes := by
 refine List.ext_getElem (by simp [mask]) fun i _ _ => ?_
 simp [mask, UInt8.xor_assoc]

theorem decryptBytes_encryptBytes (nonce plaintext : List UInt8) :
  ctx.decryptBytes crypto nonce (ctx.encryptBytes crypto nonce plaintext) = .ok plaintext := by
 simp [decryptBytes, encryptBytes, bind_eq_ok]

theorem decryptBytes_length {nonce ciphertext plaintext : List UInt8}
  (h : ctx.decryptBytes crypto nonce ciphertext = .ok plaintext) : plaintext.length ≤ ciphertext.length := by
 obtain ⟨_, -, h⟩ := bind_eq_ok.mp h
 obtain ⟨_, -, h⟩ := bind_eq_ok.mp h
 cases h
 simp [mask]

theorem length_of_dropPrefix {marker rest : List Char} (h : s.dropPrefix? marker = some rest) :
  s.length = marker.length + rest.length := by
 obtain ⟨marker', rfl, hmarker⟩ := List.dropPrefix?_eq_some_iff.mp h
 rw [eq_of_beq hmarker, List.length_append]

theorem base64Data_length {data : List Char} (h : ctx.base64Data crypto s = .ok data) : data.length < s.length := by
 rw [base64Data] at h
 split at h
 · have hs := length_of_dropPrefix ‹_›
   obtain ⟨⟨keyId, data'⟩, hsplit, h⟩ := bind_eq_ok.mp h
   obtain ⟨_, -, h⟩ := bind_eq_ok.mp h
   cases h
   obtain ⟨_, -, rfl⟩ := eq_append_of_splitOnce (ofOption_eq_ok.mp hsplit)
   rw [hs, List.length_append, List.length_cons]
   omega
 · rw [length_of_dropPrefix (ofOption_eq_ok.mp h)]
   simp

theorem decrypt_length (h : ctx.decrypt crypto s = .ok t) : t.length < s.length := by
  obtain ⟨data, hdata, h⟩ := bind_eq_ok.mp h
  obtain ⟨bytes, hbytes, h⟩ := bind_eq_ok.mp h
  obtain ⟨_, -, h⟩ := bind_eq_ok.mp h
  obtain ⟨plaintext, hplaintext, h⟩ := bind_eq_ok.mp h
  rw [mapError_eq_ok] at hplaintext
  rw [ofOption_eq_ok] at hbytes h
  calc t.length ≤ plaintext.length := fromUtf8_length h
    _ ≤ (bytes.drop 12).length := decryptBytes_length hplaintext
    _ ≤ bytes.length := by simp
    _ ≤ data.length := Alphabet.decode_length hbytes
    _ < s.length := base64Data_length hdata

variable (nonce : Vector UInt8 12)

theorem base64Data_encrypt : ctx.base64Data crypto (ctx.encrypt crypto nonce s) =
  .ok (Alphabet.standard.encode true (nonce.toList ++ ctx.encryptBytes crypto nonce.toList (utf8 s))) := by
 have hsplit := @splitOnce_append Char (· = ':') (ctx.keyId crypto)
  (Alphabet.standard.encode true (nonce.toList ++ ctx.encryptBytes crypto nonce.toList (utf8 s))) ':'
  (by simpa using fun c hc (h : c = ':') => colon_notMem_keyId (h ▸ hc)) (by simp)
 rw [base64Data, encrypt, List.dropPrefix?_append_of_beq _ (BEq.refl _)]
 simp [hsplit, ofOption, ensure, bind, Except.bind]

theorem decrypt_encrypt : ctx.decrypt crypto (ctx.encrypt crypto nonce s) = .ok s := by
 have hlength : nonce.toList.length = 12 := by simp
 refine bind_eq_ok.mpr ⟨_, base64Data_encrypt nonce, bind_eq_ok.mpr
  ⟨nonce.toList ++ ctx.encryptBytes crypto nonce.toList (utf8 s), ofOption_eq_ok.mpr (Alphabet.decode_encode _), ?_⟩⟩
 rw [List.take_left' hlength, List.drop_left' hlength]
 refine bind_eq_ok.mpr ⟨(), by simp, bind_eq_ok.mpr ⟨_, ?_, ofOption_eq_ok.mpr (fromUtf8_utf8 s)⟩⟩
 exact mapError_eq_ok.mpr (decryptBytes_encryptBytes _ _)

theorem isEncrypted_encrypt : isEncrypted (ctx.encrypt crypto nonce s) = true := by
 simp [isEncrypted, encrypt]

theorem decode_plain (hs : isEncrypted s = false) (context : Option EncryptionContext) :
  decode crypto context s = .ok s := by
 simp [decode, hs]

theorem decode_ne_self (hs : isEncrypted s = true) (context : Option EncryptionContext) :
  decode crypto context s ≠ .ok s := by
 intro h
 rw [decode, if_pos hs] at h
 obtain ⟨ctx, -, h⟩ := bind_eq_ok.mp h
 exact absurd (decrypt_length (mapError_eq_ok.mp h)) (lt_irrefl _)

theorem decode_eq_self_iff (context : Option EncryptionContext) :
  decode crypto context s = .ok s ↔ isEncrypted s = false := by
 cases hs : isEncrypted s with
 | false => exact iff_of_true (decode_plain hs context) rfl
 | true => exact iff_of_false (decode_ne_self hs context) nofun

/-- A text written under a key is read back under it; one written without a key is read back, without a key or with one
that was configured later, if and only if it does not begin with a marker. -/
theorem decode_iff (crypto : Crypto) (nonce : Vector UInt8 12) (s : List Char) :
  (∀ ctx, decode crypto (some ctx) (encode crypto (some ctx) nonce s) = .ok s) ∧
   ∀ context, decode crypto context (encode crypto none nonce s) = .ok s ↔ isEncrypted s = false := by
 refine ⟨fun ctx => ?_, decode_eq_self_iff⟩
 rw [decode, encode, if_pos (isEncrypted_encrypt nonce)]
 exact mapError_eq_ok.mpr (decrypt_encrypt nonce)

/-- A password that begins with a marker cannot be read back where encryption is not configured, nor after it is. -/
theorem decode_fails : ∃ s : List Char, s = "ENC1:swordfish".toList ∧ ∀ (crypto : Crypto) (nonce : Vector UInt8 12),
  decode crypto none (encode crypto none nonce s) =
    .error "Encryption context not initialized: Encryption context not initialized" ∧
   ∀ ctx, decode crypto (some ctx) (encode crypto none nonce s) =
    .error "Failed to decrypt string: Malformed ENC1 ciphertext: missing key id separator" :=
 ⟨_, rfl, fun _ _ => ⟨rfl, fun _ => rfl⟩⟩

end EncryptedString

end Lnvps
