import AivenExamples.Data.Base64
import AivenExamples.Data.BlockCipher

/-! The Kafka producer that encrypts its messages and the consumer that decrypts them. -/

namespace AivenExamples.ClientAes

open Base64 BlockCipher

/-- AES with keys of sixteen bytes, which permutes blocks of sixteen bytes under every key. -/
abbrev Aes := Vector UInt8 16 → Equiv.Perm (Block 16)

namespace Producer

/-- The encryption key in the script of the producer. -/
def key : Vector UInt8 16 :=
  #v[0x2b, 0x7e, 0x15, 0x16, 0x28, 0xae, 0xd2, 0xa6, 0xab, 0xf7, 0x15, 0x88, 0x09, 0xcf, 0x4f, 0x3c]

/-- Padding to blocks of 128 bits. -/
def pad (data : List UInt8) : List UInt8 := pkcs7Pad (128 / 8) data

/-- AES-128 in CBC mode, the key being the first block as well, and base64 of the result. -/
def encrypt (aes : Aes) (plaintext : List UInt8) : Except PyError (List UInt8) := do
  let paddedPlaintext := pad plaintext
  let ciphertext ← cbcEncrypt (aes key) key paddedPlaintext
  return b64encode ciphertext

/-- `EncryptedValueSerializer`: the message in UTF-8, encrypted. -/
def encryptedValueSerializer (aes : Aes) (msg : String) : Except PyError (List UInt8) :=
  encrypt aes msg.toUTF8.data.toList

end Producer

namespace Consumer

/-- The encryption key in the script of the consumer. -/
def key : Vector UInt8 16 :=
  #v[0x2b, 0x7e, 0x15, 0x16, 0x28, 0xae, 0xd2, 0xa6, 0xab, 0xf7, 0x15, 0x88, 0x09, 0xcf, 0x4f, 0x3c]

/-- Removing the padding to blocks of 128 bits. -/
def unpad (data : List UInt8) : Except PyError (List UInt8) := pkcs7Unpad (128 / 8) data

/-- Base64, AES-128 in CBC mode with the key as the first block as well, and the padding. -/
def decrypt (aes : Aes) (ciphertext : List UInt8) : Except PyError (List UInt8) := do
  let ciphertext ← b64decodeBytes ciphertext
  let plaintext ← cbcDecrypt (aes key) key ciphertext
  unpad plaintext

/-- `EncryptedValueDeserializer`: the value, decrypted and left as bytes. -/
def encryptedValueDeserializer (aes : Aes) (value : List UInt8) : Except PyError (List UInt8) :=
  decrypt aes value

end Consumer

/-- The two scripts hold the same key. -/
theorem same_key : Consumer.key = Producer.key := rfl

/-- What the producer encrypts, of any length, the consumer decrypts to the same bytes. -/
theorem decrypt_encrypt (aes : Aes) (plaintext : List UInt8) :
    ∃ value, Producer.encrypt aes plaintext = .ok value ∧
      Consumer.decrypt aes value = .ok plaintext := by
  -- Each layer is undone in turn: base64, then the chained blocks, then the padding.
  have whole : (Producer.pad plaintext).length % 16 = 0 :=
    length_pkcs7Pad_mod plaintext (by omega)
  obtain ⟨ciphertext, encrypted, decrypted⟩ :=
    cbcDecrypt_cbcEncrypt (aes Producer.key) Producer.key (by omega) whole
  refine ⟨b64encode ciphertext, ?_, ?_⟩
  · rw [Producer.encrypt, encrypted]
    rfl
  · have unpadded : Consumer.unpad (Producer.pad plaintext) = .ok plaintext :=
      pkcs7Unpad_pkcs7Pad plaintext (by omega) (by omega)
    rw [Consumer.decrypt, b64decodeBytes_b64encode, same_key]
    exact bind_eq_ok.mpr ⟨_, rfl, bind_eq_ok.mpr ⟨_, decrypted, unpadded⟩⟩

/-- The value deserializer of the consumer gives back the message of the producer. -/
theorem deserializer_serializer (aes : Aes) (msg : String) :
    Producer.encryptedValueSerializer aes msg >>= Consumer.encryptedValueDeserializer aes =
      .ok msg.toUTF8.data.toList := by
  obtain ⟨value, sent, received⟩ := decrypt_encrypt aes msg.toUTF8.data.toList
  exact bind_eq_ok.mpr ⟨value, sent, received⟩

/-- The consumer decodes every message of the producer to its bytes in UTF-8. -/
theorem decrypt_serialized (aes : Aes) (msg : String) :
    ∃ value, Producer.encryptedValueSerializer aes msg = .ok value ∧
      Consumer.decrypt aes value = .ok msg.toUTF8.data.toList :=
  -- The deserializer is the decryption.
  bind_eq_ok.mp (deserializer_serializer aes msg)

end AivenExamples.ClientAes
