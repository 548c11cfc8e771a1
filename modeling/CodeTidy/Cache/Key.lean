import CodeTidy.Blake3
import CodeTidy.Json.Printer
import CodeTidy.Settings.Basic

/-!
# Keys of results

A result is kept under the digest of the request: its language, its settings and its code. Each of
the three is written behind its length, so that different requests are different sequences of
bytes.
-/

namespace CodeTidy.Cache

/-- A number below `2 ^ 64` as eight bytes, the lowest first. -/
def lengthBytes (n : Nat) : List UInt8 :=
  (List.range 8).map fun i => UInt8.ofNat (n >>> (8 * i) % 256)

/-- The bytes of a text in UTF-8, behind their number. -/
def part (s : String) : List UInt8 :=
  let bytes := s.toUTF8
  lengthBytes bytes.size ++ bytes.toList

/-- The bytes that stand for a request. -/
def encode (language : String) (settings : Settings) (code : String) : List UInt8 :=
  part language ++ part (Json.toText settings.toJson) ++ part code

/-- The key of a request. -/
def key (language : String) (settings : Settings) (code : String) : Blake3.Digest :=
  Blake3.digest ⟨(encode language settings code).toArray⟩

end CodeTidy.Cache
