import TensorInference.Bytes

/-!
# Fingerprints

The 64-bit FNV-1a fingerprint of bytes starts at a fixed offset and takes one byte after the other
in by an exclusive or and a product with a fixed prime. It sees the bytes as one run: nothing marks
where a part of them ends.
-/

namespace TensorInference.Bytes

def absorb (hash : UInt64) (bytes : Bytes) : UInt64 :=
  bytes.foldl (fun hash byte => (hash ^^^ byte.toUInt64) * 0x100000001b3) hash

def fingerprint (bytes : Bytes) : UInt64 :=
  absorb 0xcbf29ce484222325 bytes

theorem absorb_append (hash : UInt64) (front back : Bytes) :
    absorb hash (front ++ back) = absorb (absorb hash front) back :=
  List.foldl_append

end TensorInference.Bytes
