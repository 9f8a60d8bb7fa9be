import Mathlib.Data.List.Basic

/-! Hexadecimal texts and UUIDs. A UUID is read from its simple, hyphenated, braced or URN form
and written in the lower-case hyphenated one. -/

namespace Lib

def hexDigit (n : ℕ) : Char := if n < 10 then Char.ofNat (48 + n) else Char.ofNat (87 + n)

def hexValue (c : Char) : Option ℕ :=
  let n := c.toNat
  if 48 ≤ n ∧ n ≤ 57 then some (n - 48)
  else if 97 ≤ n ∧ n ≤ 102 then some (n - 87)
  else if 65 ≤ n ∧ n ≤ 70 then some (n - 55)
  else none

def hexText (bytes : List UInt8) : String :=
  String.ofList (bytes.flatMap fun b => [hexDigit (b.toNat / 16), hexDigit (b.toNat % 16)])

theorem length_toList_hexText (bytes : List UInt8) :
    (hexText bytes).toList.length = 2 * bytes.length := by
  rw [hexText, String.toList_ofList]
  induction bytes with
  | nil => rfl
  | cons b bytes ih =>
    rw [List.flatMap_cons, List.length_append, ih, List.length_cons]
    show 2 + 2 * bytes.length = 2 * (bytes.length + 1)
    omega

theorem hexDigit_inj : ∀ m < 16, ∀ n < 16, hexDigit m = hexDigit n → m = n := by
  decide

theorem hexText_injective : Function.Injective hexText := by
  intro as bs h
  have hlist := congrArg String.toList h
  simp only [hexText, String.toList_ofList] at hlist
  clear h
  induction as generalizing bs with
  | nil =>
    cases bs with
    | nil => rfl
    | cons b bs => cases hlist
  | cons a as ih =>
    cases bs with
    | nil => cases hlist
    | cons b bs =>
      have ha := a.toNat_lt
      have hb := b.toNat_lt
      simp only [List.flatMap_cons, List.cons_append, List.nil_append, List.cons.injEq] at hlist
      obtain ⟨hhigh, hlow, hrest⟩ := hlist
      have hhigh := hexDigit_inj (a.toNat / 16) (by omega) (b.toNat / 16) (by omega) hhigh
      have hlow := hexDigit_inj (a.toNat % 16) (by omega) (b.toNat % 16) (by omega) hlow
      have hab : a = b := UInt8.toNat_inj.1 (by omega)
      rw [hab, ih hrest]

/-- The thirty-two hexadecimal digits of a UUID. -/
structure Uuid where
  digits : List ℕ

namespace Uuid

def parseSimple (cs : List Char) : Option Uuid :=
  if cs.length = 32 then (cs.mapM hexValue).map Uuid.mk else none

def parseHyphenated (cs : List Char) : Option Uuid :=
  if cs.length = 36 ∧ cs[8]? = some '-' ∧ cs[13]? = some '-' ∧ cs[18]? = some '-' ∧
      cs[23]? = some '-' then
    parseSimple (cs.take 8 ++ (cs.drop 9).take 4 ++ (cs.drop 14).take 4 ++
      (cs.drop 19).take 4 ++ cs.drop 24)
  else none

def parse (text : String) : Option Uuid :=
  let cs := text.toList
  if cs.length = 32 then parseSimple cs
  else if cs.length = 36 then parseHyphenated cs
  else if cs.length = 38 ∧ cs.head? = some '\x7b' ∧ cs.getLast? = some '\x7d' then
    parseHyphenated ((cs.drop 1).take 36)
  else if cs.length = 45 ∧ "urn:uuid:".toList.isPrefixOf cs then parseHyphenated (cs.drop 9)
  else none

end Uuid
end Lib
