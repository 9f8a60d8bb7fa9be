import Mathlib.Data.List.Basic

/-! The text of a file-system path: the components it names, and how far the text alone says
it climbs and descends. `steps` is what a resolver walks, `components` what `Path::components`
lists: there a `.` counts only as the first component. -/

namespace Lib.PathText

abbrev Name := List UInt8

inductive Component
  | rootDir
  | curDir
  | parentDir
  | normal (name : Name)
  deriving DecidableEq

def separator : UInt8 := 47

def isAbsolute (path : List UInt8) : Bool := path.head? = some separator

def component (part : List UInt8) : Component :=
  if part = [46] then .curDir else if part = [46, 46] then .parentDir else .normal part

def steps (path : List UInt8) : List Component :=
  (if isAbsolute path then [.rootDir] else []) ++
    ((path.splitOn separator).filter (· ≠ [])).map component

def components (path : List UInt8) : List Component :=
  match steps path with
  | [] => []
  | c :: rest => c :: rest.filter (· ≠ .curDir)

/-- The text, read `depth` levels below a directory, never climbs above that directory. -/
def Contained : ℕ → List Component → Prop
  | _, [] => True
  | _, .rootDir :: _ => False
  | depth, .curDir :: rest => Contained depth rest
  | depth, .parentDir :: rest => 0 < depth ∧ Contained (depth - 1) rest
  | depth, .normal _ :: rest => Contained (depth + 1) rest

instance decidableContained : ∀ depth text, Decidable (Contained depth text)
  | _, [] => isTrue trivial
  | _, .rootDir :: _ => isFalse id
  | depth, .curDir :: rest => decidableContained depth rest
  | depth, .parentDir :: rest =>
    haveI := decidableContained (depth - 1) rest
    inferInstanceAs (Decidable (0 < depth ∧ Contained (depth - 1) rest))
  | depth, .normal _ :: rest => decidableContained (depth + 1) rest

def level : ℕ → List Component → ℕ
  | depth, [] => depth
  | _, .rootDir :: rest => level 0 rest
  | depth, .curDir :: rest => level depth rest
  | depth, .parentDir :: rest => level (depth - 1) rest
  | depth, .normal _ :: rest => level (depth + 1) rest

theorem Contained.mono {text : List Component} {d e : ℕ} (h : Contained d text) (hde : d ≤ e) :
    Contained e text := by
  induction text generalizing d e with
  | nil => exact trivial
  | cons c rest ih =>
    cases c with
    | rootDir => exact h
    | curDir => exact ih h hde
    | parentDir =>
      obtain ⟨hd, hrest⟩ := h
      exact ⟨Nat.lt_of_lt_of_le hd hde, ih hrest (Nat.sub_le_sub_right hde 1)⟩
    | normal name => exact ih h (Nat.add_le_add_right hde 1)

theorem contained_append {a b : List Component} {d : ℕ} :
    Contained d (a ++ b) ↔ Contained d a ∧ Contained (level d a) b := by
  induction a generalizing d with
  | nil => simp [Contained, level]
  | cons c a ih =>
    cases c with
    | rootDir => simp [Contained]
    | curDir => exact ih
    | parentDir => simp only [List.cons_append, Contained, level, ih, and_assoc]
    | normal name => exact ih

theorem contained_filter {text : List Component} {d : ℕ} :
    Contained d (text.filter (· ≠ .curDir)) ↔ Contained d text := by
  induction text generalizing d with
  | nil => rfl
  | cons c rest ih =>
    cases c with
    | rootDir => simp [Contained]
    | curDir => simpa [Contained] using ih
    | parentDir => simpa [Contained] using fun _ => ih
    | normal name => simpa [Contained] using ih

theorem contained_components {path : List UInt8} {d : ℕ} :
    Contained d (components path) ↔ Contained d (steps path) := by
  unfold components
  split
  · next h => rw [h]
  · next c rest h =>
    rw [h]
    cases c with
    | rootDir => rfl
    | curDir => exact contained_filter
    | parentDir => exact and_congr_right fun _ => contained_filter
    | normal name => exact contained_filter

/-! ## The text of a list of names -/

def IsName (name : Name) : Prop :=
  name ≠ [] ∧ separator ∉ name ∧ name ≠ [46] ∧ name ≠ [46, 46]

def join (names : List Name) : List UInt8 := [separator].intercalate names

theorem steps_join {names : List Name} (h : ∀ name ∈ names, IsName name) (hne : names ≠ []) :
    steps (join names) = names.map .normal := by
  have hsplit : (join names).splitOn separator = names :=
    List.splitOn_intercalate separator (fun name hname => (h name hname).2.1) hne
  have hrelative : isAbsolute (join names) = false := by
    obtain ⟨first, rest, rfl⟩ := List.exists_cons_of_ne_nil hne
    obtain ⟨hfirst, hseparator, -⟩ := h first List.mem_cons_self
    obtain ⟨byte, bytes, rfl⟩ := List.exists_cons_of_ne_nil hfirst
    have hbyte : byte ≠ separator := fun heq => hseparator (heq ▸ List.mem_cons_self)
    cases rest <;> simpa [isAbsolute, join, List.intercalate] using hbyte
  have hnonempty : names.filter (· ≠ []) = names :=
    List.filter_eq_self.2 fun name hname => decide_eq_true (h name hname).1
  rw [steps, hsplit, hrelative, hnonempty]
  refine List.map_congr_left fun name hname => ?_
  rw [component, if_neg (h name hname).2.2.1, if_neg (h name hname).2.2.2]

theorem join_append {a b : List Name} (ha : a ≠ []) (hb : b ≠ []) :
    join (a ++ b) = join a ++ separator :: join b := by
  unfold join List.intercalate
  induction a with
  | nil => exact absurd rfl ha
  | cons first rest ih =>
    cases rest with
    | nil =>
      obtain ⟨second, b, rfl⟩ := List.exists_cons_of_ne_nil hb
      simp
    | cons second rest => simpa using ih (List.cons_ne_nil _ _)

end Lib.PathText
