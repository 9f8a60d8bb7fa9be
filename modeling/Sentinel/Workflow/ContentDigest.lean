import Sentinel.Lib.Bytes
import Sentinel.Lib.Uuid

/-! Digests of workflow values (`sentinel-workflow`, module `digest`): the writer that collects
what it is given in a buffer before hashing it, and the byte digests, which hash the JSON array of
the bytes without building it. The hasher of `sha2` is the bytes it has been given. -/

namespace Sentinel.Workflow.ContentDigest
open Lib

def digestBufferBytes : ℕ := 8192

structure DigestWriter where
  hashed : List UInt8
  buffer : List UInt8
  room : buffer.length < digestBufferBytes

namespace DigestWriter

def new (domain : String) : DigestWriter :=
  ⟨utf8Bytes domain ++ [0], [], by decide⟩

theorem length_filled {w : DigestWriter} {bytes : List UInt8}
    (h : (w.buffer ++ bytes.take (min bytes.length
      (digestBufferBytes - w.buffer.length))).length ≠ digestBufferBytes) :
    (w.buffer ++ bytes.take (min bytes.length
      (digestBufferBytes - w.buffer.length))).length < digestBufferBytes := by
  have hroom := w.room
  rw [List.length_append, List.length_take] at h ⊢
  omega

theorem count_pos {w : DigestWriter} {bytes : List UInt8} (h : bytes ≠ []) :
    0 < min bytes.length (digestBufferBytes - w.buffer.length) := by
  have hroom := w.room
  have hbytes := List.length_pos_iff.2 h
  omega

def append (w : DigestWriter) (bytes : List UInt8) : DigestWriter :=
  if hempty : bytes = [] then w
  else if w.buffer = [] ∧ digestBufferBytes ≤ bytes.length then
    { w with hashed := w.hashed ++ bytes }
  else
    let count := min bytes.length (digestBufferBytes - w.buffer.length)
    let filled := w.buffer ++ bytes.take count
    if hfull : filled.length = digestBufferBytes then
      append ⟨w.hashed ++ filled, [], by decide⟩ (bytes.drop count)
    else
      append ⟨w.hashed, filled, length_filled hfull⟩ (bytes.drop count)
termination_by bytes.length
decreasing_by
  all_goals
    have hcount := count_pos (w := w) hempty
    have hbytes := List.length_pos_iff.2 hempty
    rw [List.length_drop]
    omega

def flush (w : DigestWriter) : DigestWriter := ⟨w.hashed ++ w.buffer, [], by decide⟩

def contents (w : DigestWriter) : List UInt8 := w.hashed ++ w.buffer

@[simp] theorem contents_new (domain : String) :
    (new domain).contents = utf8Bytes domain ++ [0] := by
  simp [new, contents]

@[simp] theorem contents_flush (w : DigestWriter) : w.flush.contents = w.contents := by
  simp [flush, contents]

@[simp] theorem contents_append (w : DigestWriter) (bytes : List UInt8) :
    (w.append bytes).contents = w.contents ++ bytes := by
  fun_induction append w bytes with
  | case1 => simp
  | case2 w bytes _ hlarge => simp [contents, hlarge.1]
  | case3 w bytes _ _ count filled _ ih =>
    rw [ih]
    simp [contents, filled, List.append_assoc]
  | case4 w bytes _ _ count filled _ ih =>
    rw [ih]
    simp [contents, filled, List.append_assoc]

variable [Sha256]

def finish (w : DigestWriter) : String := hexText (Sha256.digest w.contents).toList

end DigestWriter

variable [Sha256]

def domainSha256 (domain : String) (bytes : List UInt8) : String :=
  hexText (Sha256.digest (utf8Bytes domain ++ [0] ++ bytes)).toList

theorem finish_append (domain : String) (bytes : List UInt8) :
    ((DigestWriter.new domain).append bytes).finish = domainSha256 domain bytes := by
  simp [DigestWriter.finish, domainSha256]

/-! ### Byte digests -/

def decimalByte (value : UInt8) : List UInt8 :=
  if 100 ≤ value then [44, 48 + value / 100, 48 + value / 10 % 10, 48 + value % 10]
  else if 10 ≤ value then [44, 48 + value / 10, 48 + value % 10]
  else [44, 48 + value]

def uncachedBytesSha256 (domain : String) (bytes : List UInt8) : String :=
  let writer := (DigestWriter.new domain).append [91]
  let writer :=
    match bytes with
    | [] => writer
    | first :: rest =>
      rest.foldl (fun writer byte => writer.append (decimalByte byte))
        (writer.append (decimalByte first).tail)
  (writer.append [93]).finish

def decimalText (value : UInt8) : List UInt8 :=
  (Nat.toDigits 10 value.toNat).flatMap String.utf8EncodeChar

def jsonNumbers (bytes : List UInt8) : List UInt8 :=
  [91] ++ List.intercalate [44] (bytes.map decimalText) ++ [93]

omit [Sha256] in
theorem decimalByte_eq (value : UInt8) : decimalByte value = 44 :: decimalText value := by
  have hall : ∀ n : Fin 256, decimalByte (UInt8.ofNat n) = 44 :: decimalText (UInt8.ofNat n) := by
    decide +kernel
  simpa using hall ⟨value.toNat, value.toNat_lt⟩

omit [Sha256] in
theorem contents_foldl (w : DigestWriter) (rest : List UInt8) :
    (rest.foldl (fun writer byte => writer.append (decimalByte byte)) w).contents =
      w.contents ++ rest.flatMap decimalByte := by
  induction rest generalizing w with
  | nil => simp
  | cons byte rest ih => simp [ih, List.append_assoc]

omit [Sha256] in
theorem intercalate_decimalText (first : UInt8) (rest : List UInt8) :
    List.intercalate [44] ((first :: rest).map decimalText) =
      decimalText first ++ rest.flatMap decimalByte := by
  induction rest generalizing first with
  | nil => simp [List.intercalate]
  | cons next rest ih =>
    have hnext := ih next
    simp only [List.map_cons, List.intercalate_cons_cons] at hnext ⊢
    rw [hnext, List.flatMap_cons, decimalByte_eq]
    simp

theorem uncachedBytesSha256_eq (domain : String) (bytes : List UInt8) :
    uncachedBytesSha256 domain bytes = domainSha256 domain (jsonNumbers bytes) := by
  cases bytes with
  | nil => simp [uncachedBytesSha256, DigestWriter.finish, domainSha256, jsonNumbers]
  | cons first rest =>
    have htail : (decimalByte first).tail = decimalText first := by rw [decimalByte_eq]; rfl
    simp only [uncachedBytesSha256, DigestWriter.finish, DigestWriter.contents_append,
      contents_foldl, htail, DigestWriter.contents_new, domainSha256, jsonNumbers,
      intercalate_decimalText, List.append_assoc]

end Sentinel.Workflow.ContentDigest
