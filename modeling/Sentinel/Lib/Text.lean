import Mathlib.Data.List.Infix
import Mathlib.Data.List.Sort
import Mathlib.Data.String.Basic
import Sentinel.Lib.Bytes

/-! Texts: white space as Unicode defines it, JSON strings, and the JSON text of an object, which
a development takes as a parameter. -/

namespace Lib

/-- The Unicode property `White_Space`. -/
def isWhiteSpace (c : Char) : Bool :=
  let n := c.toNat
  (9 ≤ n && n ≤ 13) || n = 0x20 || n = 0x85 || n = 0xA0 || n = 0x1680 ||
    (0x2000 ≤ n && n ≤ 0x200A) || n = 0x2028 || n = 0x2029 || n = 0x202F || n = 0x205F ||
    n = 0x3000

def trim (s : String) : String :=
  String.ofList ((s.toList.dropWhile isWhiteSpace).reverse.dropWhile isWhiteSpace).reverse

theorem isPrefixOf_append (start rest : String) :
    start.toList.isPrefixOf (start ++ rest).toList := by
  rw [String.toList_append]
  exact List.isPrefixOf_iff_prefix.2 (List.prefix_append ..)

theorem append_ne_append {p q : String} {n : ℕ} {x y : Char} (hp : p.toList[n]? = some x)
    (hq : q.toList[n]? = some y) (hne : x ≠ y) (a b : String) : p ++ a ≠ q ++ b := by
  have hstart : ∀ {r : String} {z : Char} (c : String), r.toList[n]? = some z →
      (r ++ c).toList[n]? = some z := by
    intro r z c hr
    rw [String.toList_append, List.getElem?_append_left (List.getElem?_eq_some_iff.1 hr).1, hr]
  intro heq
  have hx := hstart a hp
  rw [heq, hstart b hq] at hx
  exact hne (Option.some_inj.1 hx).symm

/-! ## JSON strings -/

def escapedChars : List Char := '"' :: '\\' :: (List.range 32).map Char.ofNat

def jsonChar (c : Char) : List Char :=
  match c with
  | '"' => ['\\', '"']
  | '\\' => ['\\', '\\']
  | '\x08' => ['\\', 'b']
  | '\t' => ['\\', 't']
  | '\n' => ['\\', 'n']
  | '\x0c' => ['\\', 'f']
  | '\r' => ['\\', 'r']
  | c =>
    if c.toNat < 32 then
      ['\\', 'u', '0', '0', (c.toNat / 16).digitChar, (c.toNat % 16).digitChar]
    else [c]

def jsonString (text : List Char) : List Char := '"' :: (text.flatMap jsonChar ++ ['"'])

theorem jsonChar_of_not_mem {c : Char} (h : c ∉ escapedChars) : jsonChar c = [c] := by
  have hlarge : ¬ c.toNat < 32 := by
    intro hlt
    refine h (List.mem_cons_of_mem _ (List.mem_cons_of_mem _ ?_))
    exact List.mem_map.2 ⟨c.toNat, List.mem_range.2 hlt, Char.ofNat_toNat c⟩
  unfold jsonChar
  split
  case h_8 => rw [if_neg hlarge]
  all_goals exact absurd (by decide) h

theorem head_jsonChar {c : Char} (hc : c ∈ escapedChars) : (jsonChar c).head? = some '\\' := by
  have hall : escapedChars.all fun c => (jsonChar c).head? = some '\\' := by decide
  exact of_decide_eq_true (List.all_eq_true.1 hall c hc)

theorem jsonChar_inj_of_isPrefix {c d : Char} (hc : c ∈ escapedChars) (hd : d ∈ escapedChars)
    (h : jsonChar c <+: jsonChar d) : c = d := by
  have hall : escapedChars.all fun c => escapedChars.all fun d =>
      jsonChar c <+: jsonChar d → c = d := by decide +kernel
  exact of_decide_eq_true (List.all_eq_true.1 (List.all_eq_true.1 hall c hc) d hd) h

theorem jsonChar_append_ne {c : Char} (hc : c ∈ escapedChars) {d : Char} (hd : d ∉ escapedChars)
    (x y : List Char) : jsonChar c ++ x ≠ jsonChar d ++ y := by
  intro h
  have hfirst := congrArg List.head? h
  rw [jsonChar_of_not_mem hd, List.head?_append, head_jsonChar hc] at hfirst
  obtain rfl : '\\' = d := by simpa using hfirst
  exact hd (by decide)

theorem jsonChar_append_inj {c d : Char} {x y : List Char}
    (h : jsonChar c ++ x = jsonChar d ++ y) : c = d ∧ x = y := by
  suffices heq : c = d by
    subst heq
    exact ⟨rfl, List.append_cancel_left h⟩
  by_cases hc : c ∈ escapedChars <;> by_cases hd : d ∈ escapedChars
  · have hfront : jsonChar d <+: jsonChar c ++ x := h ▸ List.prefix_append ..
    rcases List.prefix_or_prefix_of_prefix (List.prefix_append (jsonChar c) x) hfront with
      hcd | hdc
    · exact jsonChar_inj_of_isPrefix hc hd hcd
    · exact (jsonChar_inj_of_isPrefix hd hc hdc).symm
  · exact absurd h (jsonChar_append_ne hc hd x y)
  · exact absurd h.symm (jsonChar_append_ne hd hc y x)
  · rw [jsonChar_of_not_mem hc, jsonChar_of_not_mem hd] at h
    exact (List.cons.inj h).1

/-- The quote that ends a string is none of its characters. -/
theorem quote_ne_jsonChar_append (c : Char) (x y : List Char) : '"' :: y ≠ jsonChar c ++ x := by
  intro h
  by_cases hc : c ∈ escapedChars
  · have hfirst := congrArg List.head? h
    rw [List.head?_append, head_jsonChar hc] at hfirst
    cases hfirst
  · rw [jsonChar_of_not_mem hc] at h
    exact hc ((List.cons.inj h).1 ▸ by decide)

/-- Read from the front of a longer text, a JSON string determines the text it stands for. -/
theorem jsonString_append_inj {s t x y : List Char}
    (h : jsonString s ++ x = jsonString t ++ y) : s = t ∧ x = y := by
  have hbody : s.flatMap jsonChar ++ '"' :: x = t.flatMap jsonChar ++ '"' :: y := by
    simpa [jsonString] using h
  clear h
  induction s generalizing t with
  | nil =>
    cases t with
    | nil => exact ⟨rfl, (List.cons.inj hbody).2⟩
    | cons d t =>
      rw [List.flatMap_cons, List.append_assoc] at hbody
      exact absurd hbody (quote_ne_jsonChar_append d _ x)
  | cons c s ih =>
    cases t with
    | nil =>
      rw [List.flatMap_cons, List.append_assoc] at hbody
      exact absurd hbody.symm (quote_ne_jsonChar_append c _ y)
    | cons d t =>
      rw [List.flatMap_cons, List.flatMap_cons, List.append_assoc, List.append_assoc] at hbody
      obtain ⟨rfl, hrest⟩ := jsonChar_append_inj hbody
      obtain ⟨rfl, hend⟩ := ih hrest
      exact ⟨rfl, hend⟩

def jsonText (text : String) : String := String.ofList (jsonString text.toList)

/-- The text of a JSON object with these members, all of them texts. -/
class JsonObject where
  text : List (String × String) → String

/-- Without white space, and with the members in the order of their names. -/
@[reducible] def JsonObject.compact : JsonObject where
  text members :=
    let sorted := members.insertionSort fun a b => a.1 ≤ b.1
    "\x7b" ++ ",".intercalate (sorted.map fun m => jsonText m.1 ++ ":" ++ jsonText m.2) ++ "\x7d"

end Lib
