import WidevineCdm.Lib.Format

/-!
# Cipher block chaining and PKCS #7 padding

For an arbitrary block cipher: CBC encryption chains each block with the
previous ciphertext block, CBC decryption undoes it on whole blocks
(`cbcDecrypt_cbcEncrypt`), and PKCS #7 pads a message of any length to whole
blocks, by at least one byte.
-/

namespace WidevineCdm.Lib

/-- A block cipher on blocks of `size` bytes. -/
structure BlockCipher (size : Nat) where
  encrypt : Bytes → Bytes → Bytes
  decrypt : Bytes → Bytes → Bytes
  encrypt_length : ∀ key block, block.length = size → (encrypt key block).length = size
  decrypt_encrypt : ∀ key block, block.length = size → decrypt key (encrypt key block) = block

/-- Encryption permutes the blocks, of which there are finitely many, so
every block is a ciphertext and decryption gives a block. -/
theorem BlockCipher.decrypt_length {size : Nat} (C : BlockCipher size) (key : Bytes)
    {block : Bytes} (h : block.length = size) : (C.decrypt key block).length = size := by
  let f : List.Vector UInt8 size → List.Vector UInt8 size := fun b =>
    ⟨C.encrypt key b.toList, C.encrypt_length key b.toList b.toList_length⟩
  have hinj : Function.Injective f := by
    intro a b hab
    have hcipher : C.encrypt key a.toList = C.encrypt key b.toList := congrArg (·.toList) hab
    apply List.Vector.toList_injective
    rw [← C.decrypt_encrypt key a.toList a.toList_length, hcipher,
      C.decrypt_encrypt key b.toList b.toList_length]
  obtain ⟨b, hb⟩ := Finite.injective_iff_surjective.mp hinj ⟨block, h⟩
  have hblock : C.encrypt key b.toList = block := congrArg (·.toList) hb
  rw [← hblock, C.decrypt_encrypt key b.toList b.toList_length, b.toList_length]

/-- Bytewise exclusive or. -/
def xorBytes (a b : Bytes) : Bytes := List.zipWith (fun x y => x ^^^ y) a b

theorem xorBytes_length {a b : Bytes} (h : a.length = b.length) :
    (xorBytes a b).length = a.length := by
  rw [xorBytes, List.length_zipWith, h, Nat.min_self]

/-- Masking twice gives the bytes back. -/
theorem xorBytes_cancel {a b : Bytes} (h : a.length = b.length) :
    xorBytes (xorBytes a b) b = a := by
  induction a generalizing b with
  | nil => rfl
  | cons x xs ih =>
    cases b with
    | nil => cases h
    | cons y ys =>
      have hxy : x ^^^ y ^^^ y = x := by rw [UInt8.xor_assoc, UInt8.xor_self, UInt8.xor_zero]
      show (x ^^^ y ^^^ y) :: xorBytes (xorBytes xs ys) ys = x :: xs
      rw [hxy, ih (Nat.succ.inj h)]

variable {size : Nat} (C : BlockCipher size) (key : Bytes)

/-- The ciphertext blocks of plaintext blocks, chained from `iv`. -/
def cbcEncryptBlocks : Bytes → List Bytes → List Bytes
  | _, [] => []
  | iv, p :: ps =>
    C.encrypt key (xorBytes p iv) :: cbcEncryptBlocks (C.encrypt key (xorBytes p iv)) ps

/-- The plaintext blocks of ciphertext blocks, chained from `iv`. -/
def cbcDecryptBlocks : Bytes → List Bytes → List Bytes
  | _, [] => []
  | iv, c :: cs => xorBytes (C.decrypt key c) iv :: cbcDecryptBlocks c cs

/-- CBC encryption of whole blocks. -/
def cbcEncrypt (iv plaintext : Bytes) : Bytes :=
  (cbcEncryptBlocks C key iv (chunks size (plaintext.length / size) plaintext)).flatten

/-- CBC decryption; an incomplete last block is ignored. -/
def cbcDecrypt (iv ciphertext : Bytes) : Bytes :=
  (cbcDecryptBlocks C key iv (chunks size (ciphertext.length / size) ciphertext)).flatten

theorem length_of_mem_cbcDecryptBlocks {iv : Bytes} {cs : List Bytes} (hiv : iv.length = size)
    (hcs : ∀ c ∈ cs, c.length = size) : ∀ p ∈ cbcDecryptBlocks C key iv cs, p.length = size := by
  induction cs generalizing iv with
  | nil =>
    intro p hp
    cases hp
  | cons c cs ih =>
    have hc : c.length = size := hcs c (List.mem_cons_self ..)
    have hplain := C.decrypt_length key hc
    intro p hp
    rcases List.mem_cons.mp hp with rfl | hp
    · rw [xorBytes_length (hplain.trans hiv.symm), hplain]
    · exact ih hc (fun d hd => hcs d (List.mem_cons_of_mem _ hd)) p hp

theorem cbcDecryptBlocks_length (iv : Bytes) (cs : List Bytes) :
    (cbcDecryptBlocks C key iv cs).length = cs.length := by
  induction cs generalizing iv with
  | nil => rfl
  | cons c cs ih => rw [cbcDecryptBlocks, List.length_cons, ih, List.length_cons]

/-- **Decryption puts out the complete blocks** and no more. -/
theorem cbcDecrypt_length {iv : Bytes} (hiv : iv.length = size) (ciphertext : Bytes) :
    (cbcDecrypt C key iv ciphertext).length = size * (ciphertext.length / size) := by
  have hcs : ∀ c ∈ chunks size (ciphertext.length / size) ciphertext, c.length = size :=
    fun c hc => length_of_mem_chunks (Nat.mul_div_le ..) hc
  rw [cbcDecrypt, flatten_length (length_of_mem_cbcDecryptBlocks C key hiv hcs),
    cbcDecryptBlocks_length, chunks_length]

theorem length_of_mem_cbcEncryptBlocks {iv : Bytes} {ps : List Bytes} (hiv : iv.length = size)
    (hps : ∀ p ∈ ps, p.length = size) : ∀ c ∈ cbcEncryptBlocks C key iv ps, c.length = size := by
  induction ps generalizing iv with
  | nil =>
    intro c hc
    cases hc
  | cons p ps ih =>
    have hp : p.length = size := hps p (List.mem_cons_self ..)
    have hblock : (C.encrypt key (xorBytes p iv)).length = size :=
      C.encrypt_length key _ (by rw [xorBytes_length (hp.trans hiv.symm), hp])
    intro c hc
    rcases List.mem_cons.mp hc with rfl | hc
    · exact hblock
    · exact ih hblock (fun q hq => hps q (List.mem_cons_of_mem _ hq)) c hc

theorem cbcEncryptBlocks_length (iv : Bytes) (ps : List Bytes) :
    (cbcEncryptBlocks C key iv ps).length = ps.length := by
  induction ps generalizing iv with
  | nil => rfl
  | cons p ps ih => rw [cbcEncryptBlocks, List.length_cons, ih, List.length_cons]

/-- The ciphertext of whole blocks is as long as the plaintext. -/
theorem cbcEncrypt_length {iv plaintext : Bytes} (hiv : iv.length = size)
    (hdvd : size ∣ plaintext.length) :
    (cbcEncrypt C key iv plaintext).length = plaintext.length := by
  have hfull : size * (plaintext.length / size) = plaintext.length := Nat.mul_div_cancel' hdvd
  have hps : ∀ p ∈ chunks size (plaintext.length / size) plaintext, p.length = size :=
    fun p hp => length_of_mem_chunks (Nat.le_of_eq hfull) hp
  rw [cbcEncrypt, flatten_length (length_of_mem_cbcEncryptBlocks C key hiv hps),
    cbcEncryptBlocks_length, chunks_length, hfull]

/-- Decryption of blocks undoes encryption of blocks. -/
theorem cbcDecryptBlocks_cbcEncryptBlocks {iv : Bytes} {ps : List Bytes}
    (hiv : iv.length = size) (hps : ∀ p ∈ ps, p.length = size) :
    cbcDecryptBlocks C key iv (cbcEncryptBlocks C key iv ps) = ps := by
  induction ps generalizing iv with
  | nil => rfl
  | cons p ps ih =>
    have hp : p.length = size := hps p (List.mem_cons_self ..)
    have hmask : (xorBytes p iv).length = size := by
      rw [xorBytes_length (hp.trans hiv.symm), hp]
    rw [cbcEncryptBlocks, cbcDecryptBlocks, C.decrypt_encrypt key _ hmask,
      xorBytes_cancel (hp.trans hiv.symm),
      ih (C.encrypt_length key _ hmask) fun q hq => hps q (List.mem_cons_of_mem _ hq)]

/-- **CBC round trip** on whole blocks. -/
theorem cbcDecrypt_cbcEncrypt {iv plaintext : Bytes} (hiv : iv.length = size)
    (hdvd : size ∣ plaintext.length) :
    cbcDecrypt C key iv (cbcEncrypt C key iv plaintext) = plaintext := by
  have hfull : size * (plaintext.length / size) = plaintext.length := Nat.mul_div_cancel' hdvd
  have hps : ∀ p ∈ chunks size (plaintext.length / size) plaintext, p.length = size :=
    fun p hp => length_of_mem_chunks (Nat.le_of_eq hfull) hp
  have hcs := length_of_mem_cbcEncryptBlocks C key hiv hps
  have hcount : (cbcEncrypt C key iv plaintext).length / size
      = (cbcEncryptBlocks C key iv (chunks size (plaintext.length / size) plaintext)).length := by
    rw [cbcEncrypt_length C key hiv hdvd, cbcEncryptBlocks_length, chunks_length]
  have hchunks := chunks_flatten hcs []
  rw [List.append_nil] at hchunks
  rw [cbcDecrypt, hcount, cbcEncrypt, hchunks, cbcDecryptBlocks_cbcEncryptBlocks C key hiv hps,
    flatten_chunks, hfull, List.take_length]

/-! ## Padding -/

/-- How many bytes of padding a message gets: from 1 to `size`. -/
def padLength (size : Nat) (message : Bytes) : Nat := size - message.length % size

/-- The message with `n` bytes of value `n` appended. -/
def pkcs7Pad (size : Nat) (message : Bytes) : Bytes :=
  message ++ List.replicate (padLength size message) (UInt8.ofNat (padLength size message))

theorem padLength_pos (hsize : 0 < size) (message : Bytes) : 0 < padLength size message := by
  have h := Nat.mod_lt message.length hsize
  rw [padLength]
  omega

theorem padLength_le (message : Bytes) : padLength size message ≤ size := Nat.sub_le ..

theorem pkcs7Pad_length_le (size : Nat) (message : Bytes) :
    (pkcs7Pad size message).length ≤ message.length + size := by
  rw [pkcs7Pad, List.length_append, List.length_replicate]
  exact Nat.add_le_add_left (padLength_le message) _

theorem dvd_length_pkcs7Pad (hsize : 0 < size) (message : Bytes) :
    size ∣ (pkcs7Pad size message).length := by
  have hlt := Nat.mod_lt message.length hsize
  have hdiv := Nat.div_add_mod message.length size
  refine ⟨message.length / size + 1, ?_⟩
  rw [pkcs7Pad, List.length_append, List.length_replicate, padLength, Nat.mul_add, Nat.mul_one]
  omega

/-- `d` is `p` followed by `n` bytes of value `n`, from 1 to `size` of them. -/
def Pkcs7Padded (size : Nat) (d p : Bytes) (n : Nat) : Prop :=
  1 ≤ n ∧ n ≤ size ∧ d = p ++ List.replicate n (UInt8.ofNat n)

theorem pkcs7Padded_pkcs7Pad (hsize : 0 < size) (message : Bytes) :
    Pkcs7Padded size (pkcs7Pad size message) message (padLength size message) :=
  ⟨padLength_pos hsize message, padLength_le message, rfl⟩

/-- The last byte is the number of padding bytes. -/
theorem Pkcs7Padded.getLast? {d p : Bytes} {n : Nat} (h : Pkcs7Padded size d p n) :
    d.getLast? = some (UInt8.ofNat n) := by
  obtain ⟨hpos, -, rfl⟩ := h
  obtain ⟨k, rfl⟩ : ∃ k, n = k + 1 := ⟨n - 1, by omega⟩
  rw [List.replicate_succ', ← List.append_assoc, List.getLast?_concat]

/-- **Padding is unambiguous** for blocks shorter than 256 bytes. -/
theorem Pkcs7Padded.unique (hsize : size < 256) {d p q : Bytes} {m n : Nat}
    (hp : Pkcs7Padded size d p m) (hq : Pkcs7Padded size d q n) : m = n ∧ p = q := by
  have hlast := hp.getLast?.symm.trans hq.getLast?
  have hbyte := congrArg UInt8.toNat (Option.some.inj hlast)
  rw [UInt8.toNat_ofNat', UInt8.toNat_ofNat'] at hbyte
  obtain ⟨-, hm, hd⟩ := hp
  obtain ⟨-, hn, hd'⟩ := hq
  obtain rfl : m = n := by omega
  exact ⟨rfl, List.append_cancel_right (hd.symm.trans hd')⟩

end WidevineCdm.Lib
