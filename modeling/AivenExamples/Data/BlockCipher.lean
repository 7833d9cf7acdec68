import AivenExamples.Data.Json
import Mathlib.Logic.Equiv.Defs

/-! Cipher block chaining and PKCS7 padding, over any permutation of blocks. -/

namespace AivenExamples.BlockCipher

/-- A block of so many bytes. -/
abbrev Block (size : Nat) := Vector UInt8 size

/-! ### Blocks and bytes -/

/-- The bytes of blocks in a row. -/
def bytesOf {size : Nat} (blocks : List (Block size)) : List UInt8 :=
  blocks.flatMap Vector.toList

/-- So many blocks from the front of the bytes. -/
def blocksOf (size : Nat) : Nat → List UInt8 → List (Block size)
  | 0, _ => []
  | count + 1, data =>
    Vector.ofFn (fun position => data.getD position 0) :: blocksOf size count (data.drop size)

/-- Blocks in a row have their size as many times as there are blocks. -/
@[simp] theorem length_bytesOf {size : Nat} (blocks : List (Block size)) :
    (bytesOf blocks).length = blocks.length * size := by
  simp [bytesOf, List.length_flatMap]

/-- A block read from its own bytes, whatever follows them, is that block. -/
theorem ofFn_getD_append {size : Nat} (block : Block size) (rest : List UInt8) :
    Vector.ofFn (fun position : Fin size => (block.toList ++ rest).getD position 0) = block := by
  -- Every position lies within the block.
  ext position within
  have inside : position < block.toList.length := by simpa using within
  simp [List.getElem?_append_left inside, within]

/-- Blocks are read back from their bytes. -/
theorem blocksOf_bytesOf {size : Nat} (blocks : List (Block size)) :
    blocksOf size blocks.length (bytesOf blocks) = blocks := by
  -- The first block is read, and dropping its bytes leaves those of the others.
  induction blocks with
  | nil => rfl
  | cons block blocks ih =>
    have split : bytesOf (block :: blocks) = block.toList ++ bytesOf blocks := rfl
    have rest : (block.toList ++ bytesOf blocks).drop size = bytesOf blocks := by simp
    rw [List.length_cons, blocksOf, split, ofFn_getD_append, rest, ih]

/-- As many blocks are read as asked for. -/
@[simp] theorem length_blocksOf {size count : Nat} {data : List UInt8} :
    (blocksOf size count data).length = count := by
  induction count generalizing data with
  | zero => rfl
  | succ count ih => simp [blocksOf, ih]

/-- The bytes of the blocks read are those at the front of the data. -/
theorem bytesOf_blocksOf {size count : Nat} {data : List UInt8}
    (enough : count * size ≤ data.length) :
    bytesOf (blocksOf size count data) = data.take (count * size) := by
  -- Each block takes its size, and enough is left for the others.
  induction count generalizing data with
  | zero => simp [blocksOf, bytesOf]
  | succ count ih =>
    rw [Nat.succ_mul] at enough
    have first : size ≤ data.length := by omega
    have left : count * size ≤ (data.drop size).length := by
      rw [List.length_drop]
      omega
    have block : (Vector.ofFn fun position : Fin size => data.getD position 0).toList =
        data.take size := by
      apply List.ext_getElem
      · rw [Vector.length_toList, List.length_take]
        omega
      · intro position within _
        have inside : position < size := by simpa using within
        simp [List.getElem?_eq_getElem (show position < data.length by omega)]
    have split : bytesOf (blocksOf size (count + 1) data) =
        (Vector.ofFn fun position : Fin size => data.getD position 0).toList ++
          bytesOf (blocksOf size count (data.drop size)) := rfl
    rw [split, block, ih left, Nat.succ_mul, Nat.add_comm, List.take_add]

/-! ### Chaining -/

section Chaining

variable {size : Nat}

/-- Two blocks combined byte by byte with exclusive or. -/
def xor (left right : Block size) : Block size :=
  Vector.zipWith (· ^^^ ·) left right

/-- Combining with the same block twice changes nothing. -/
@[simp] theorem xor_xor (left right : Block size) : xor (xor left right) right = left := by
  refine Vector.ext fun position within => ?_
  simp only [xor, Vector.getElem_zipWith, UInt8.xor_assoc, UInt8.xor_self, UInt8.xor_zero]

/-- Chained encryption: every block is combined with the sealed one before it. -/
def chain (cipher : Equiv.Perm (Block size)) (previous : Block size) :
    List (Block size) → List (Block size)
  | [] => []
  | block :: rest =>
    cipher (xor block previous) :: chain cipher (cipher (xor block previous)) rest

/-- Chained decryption: every opened block is combined with the sealed one before it. -/
def unchain (cipher : Equiv.Perm (Block size)) (previous : Block size) :
    List (Block size) → List (Block size)
  | [] => []
  | block :: rest => xor (cipher.symm block) previous :: unchain cipher block rest

/-- Chaining keeps the number of blocks. -/
@[simp] theorem length_chain (cipher : Equiv.Perm (Block size)) (previous : Block size)
    (blocks : List (Block size)) : (chain cipher previous blocks).length = blocks.length := by
  induction blocks generalizing previous with
  | nil => rfl
  | cons block rest ih => simp [chain, ih]

/-- Chained decryption undoes chained encryption from the same first block. -/
theorem unchain_chain (cipher : Equiv.Perm (Block size)) (previous : Block size)
    (blocks : List (Block size)) :
    unchain cipher previous (chain cipher previous blocks) = blocks := by
  -- Both sides carry the same sealed block on to the next round.
  induction blocks generalizing previous with
  | nil => rfl
  | cons block rest ih => simp [chain, unchain, ih]

/-- What the library says about data that does not fill its last block. -/
def partialBlock : PyError :=
  .valueError "The length of the provided data is not a multiple of the block length."

/-- `update` and `finalize` of an encryptor in CBC mode. -/
def cbcEncrypt (cipher : Equiv.Perm (Block size)) (iv : Block size) (data : List UInt8) :
    Except PyError (List UInt8) :=
  if data.length % size = 0 then
    .ok (bytesOf (chain cipher iv (blocksOf size (data.length / size) data)))
  else .error partialBlock

/-- `update` and `finalize` of a decryptor in CBC mode. -/
def cbcDecrypt (cipher : Equiv.Perm (Block size)) (iv : Block size) (data : List UInt8) :
    Except PyError (List UInt8) :=
  if data.length % size = 0 then
    .ok (bytesOf (unchain cipher iv (blocksOf size (data.length / size) data)))
  else .error partialBlock

/-- Data of whole blocks is sealed, and opens to itself under the same cipher and first block. -/
theorem cbcDecrypt_cbcEncrypt (cipher : Equiv.Perm (Block size)) (iv : Block size)
    {data : List UInt8} (nonempty : 0 < size) (whole : data.length % size = 0) :
    ∃ sealed, cbcEncrypt cipher iv data = .ok sealed ∧ cbcDecrypt cipher iv sealed = .ok data := by
  -- The sealed bytes are as many blocks as the data, which are read back before they are opened.
  refine ⟨_, if_pos whole, ?_⟩
  have count : data.length / size * size = data.length :=
    Nat.div_mul_cancel (Nat.dvd_of_mod_eq_zero whole)
  have blockCount (blocks : List (Block size)) :
      (bytesOf blocks).length / size = blocks.length := by
    rw [length_bytesOf, Nat.mul_div_cancel _ nonempty]
  rw [cbcDecrypt, if_pos (by simp), blockCount, blocksOf_bytesOf, unchain_chain,
    bytesOf_blocksOf (by omega), count, List.take_length]

end Chaining

/-! ### Padding -/

/-- `update` and `finalize` of a PKCS7 padder for blocks of so many bytes. -/
def pkcs7Pad (size : Nat) (data : List UInt8) : List UInt8 :=
  data ++ List.replicate (size - data.length % size) (.ofNat (size - data.length % size))

/-- What the library says about padding it cannot remove. -/
def invalidPadding : PyError := .valueError "Invalid padding bytes."

/-- `update` and `finalize` of a PKCS7 unpadder, which looks at the last block only. -/
def pkcs7Unpad (size : Nat) (data : List UInt8) : Except PyError (List UInt8) :=
  let ready := data.take ((data.length / size - 1) * size)
  let buffer := data.drop ((data.length / size - 1) * size)
  match buffer.getLast? with
  | none => .error invalidPadding
  | some last =>
    -- The last byte counts the padding, and every byte of the padding repeats it.
    if buffer.length = size ∧ 0 < last.toNat ∧ last.toNat ≤ size ∧
        (buffer.drop (size - last.toNat)).all fun byte => byte = last then
      .ok (ready ++ buffer.take (size - last.toNat))
    else .error invalidPadding

/-- Padded data consists of whole blocks. -/
theorem length_pkcs7Pad_mod {size : Nat} (data : List UInt8) (nonempty : 0 < size) :
    (pkcs7Pad size data).length % size = 0 := by
  -- The padding is what the last block lacks.
  have short := Nat.mod_lt data.length nonempty
  have parts := Nat.div_add_mod data.length size
  have total : (pkcs7Pad size data).length = size * (data.length / size + 1) := by
    simp only [pkcs7Pad, List.length_append, List.length_replicate, Nat.mul_add]
    omega
  rw [total, Nat.mul_mod_right]

/-- Unpadding gives back what was padded, for blocks whose size fits a byte. -/
theorem pkcs7Unpad_pkcs7Pad {size : Nat} (data : List UInt8) (nonempty : 0 < size)
    (fits : size < 256) : pkcs7Unpad size (pkcs7Pad size data) = .ok data := by
  -- The whole blocks of the data are ready, and the buffer holds the rest and the padding.
  have short := Nat.mod_lt data.length nonempty
  have parts := Nat.div_add_mod data.length size
  set count := size - data.length % size with counted
  have total : (pkcs7Pad size data).length = size * (data.length / size + 1) := by
    simp only [pkcs7Pad, ← counted, List.length_append, List.length_replicate, Nat.mul_add]
    omega
  have held : ((pkcs7Pad size data).length / size - 1) * size = size * (data.length / size) := by
    rw [total, Nat.mul_div_cancel_left _ nonempty, Nat.add_sub_cancel, Nat.mul_comm]
  have before : size * (data.length / size) ≤ data.length := by omega
  have byte : (UInt8.ofNat count).toNat = count := by
    rw [UInt8.toNat_ofNat']
    exact Nat.mod_eq_of_lt (by omega)
  have ready : (pkcs7Pad size data).take (size * (data.length / size)) =
      data.take (size * (data.length / size)) := by
    rw [pkcs7Pad, List.take_append_of_le_length before]
  have buffer : (pkcs7Pad size data).drop (size * (data.length / size)) =
      data.drop (size * (data.length / size)) ++ List.replicate count (.ofNat count) := by
    rw [pkcs7Pad, List.drop_append_of_le_length before]
  have rest : (data.drop (size * (data.length / size))).length = size - count := by
    rw [List.length_drop]
    omega
  have last : (data.drop (size * (data.length / size)) ++
      List.replicate count (UInt8.ofNat count)).getLast? = some (.ofNat count) := by
    rw [List.getLast?_append, List.getLast?_replicate, if_neg (by omega)]
    rfl
  simp only [pkcs7Unpad, held, ready, buffer, last, byte]
  rw [if_pos, List.take_left' rest, List.take_append_drop]
  refine ⟨?_, by omega, by omega, ?_⟩
  · rw [List.length_append, List.length_replicate, rest]
    omega
  · rw [List.drop_left' rest, List.all_eq_true]
    exact fun other member => decide_eq_true (List.eq_of_mem_replicate member)

end AivenExamples.BlockCipher
