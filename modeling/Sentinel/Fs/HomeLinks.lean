import Sentinel.Fs.HomeManifest
import Sentinel.Lib.PathWalk

/-! Following the links of a restored home. The check on a link target counts each name of the
text as one level down, and a name that is itself a link need not go down: through a link to
`.` another link leads out of the destination. A walk stays in the destination as long as the
text that remains after each link it follows stays there, counted from where the text of the
link's target ends. -/

namespace Sentinel.Fs.HomeManifest
open Lib Lib.PathText

def Node.entry : Node → Entry
  | .dir _ => .directory
  | .symlink target => .link (steps target)
  | .file .. | .special .. => .leaf

def FileSystem.look (fs : FileSystem) (path : List Name) : Option Entry :=
  (fs path).map Node.entry

namespace Walk

def depth (dest : List Name) (w : Walk) : ℕ := w.cwd.length - dest.length

/-- Where the walk is about to follow a link, what remains after it stays in the destination
when it is read from the level at which the text of the target ends. -/
def Grounded (fs : FileSystem) (dest : List Name) (w : Walk) : Prop :=
  ∀ name rest target, w.todo = .normal name :: rest →
    fs (w.cwd ++ [name]) = some (.symlink target) →
      Contained (level (depth dest w) (steps target)) rest

structure Inside (dest : List Name) (w : Walk) : Prop where
  cwd : dest <+: w.cwd
  todo : Contained (depth dest w) w.todo

variable {before fs : FileSystem} {dest below : List Name} {todo : List Component} {v w : Walk}

theorem depth_append : depth dest ⟨dest ++ below, todo⟩ = below.length := by
  simp [depth]

theorem inside_append :
    Inside dest ⟨dest ++ below, todo⟩ ↔ Contained below.length todo := by
  refine ⟨fun h => ?_, fun h => ⟨List.prefix_append dest below, ?_⟩⟩
  · exact depth_append ▸ h.todo
  · exact depth_append.symm ▸ h

theorem Inside.step (hfs : Restored before dest fs) (hv : Inside dest v)
    (hlink : Grounded fs dest v) (h : Walk.step fs.look v = some w) : Inside dest w := by
  obtain ⟨cwd, todo⟩ := v
  obtain ⟨below, rfl⟩ := hv.cwd
  have htext := inside_append.1 hv
  cases todo with
  | nil => cases h
  | cons c rest =>
    cases c with
    | rootDir => exact htext.elim
    | curDir =>
      cases h
      exact inside_append.2 htext
    | parentDir =>
      cases h
      obtain ⟨hpos, hrest⟩ := htext
      have hne : below ≠ [] := List.length_pos_iff.1 hpos
      rw [List.dropLast_append_of_ne_nil hne]
      exact inside_append.2 (List.length_dropLast ▸ hrest)
    | normal name =>
      have hlow : ∀ {text}, Contained (below.length + 1) text →
          Inside dest ⟨dest ++ below ++ [name], text⟩ := by
        intro text htext
        rw [List.append_assoc]
        exact inside_append.2 (by simpa using htext)
      simp only [Walk.step, FileSystem.look] at h
      cases hnode : fs (dest ++ below ++ [name]) with
      | none =>
        rw [hnode] at h
        cases h
      | some node =>
      rw [hnode] at h
      cases node with
      | dir =>
        cases h
        exact hlow htext
      | symlink target =>
        -- the text of the target cannot climb out, and the rest is the guard's
        cases h
        have hvetted : Vetted (.symlink target) := by
          refine hfs.vetted (below ++ [name]) _ ?_ (by simp)
          rw [← List.append_assoc]
          exact hnode
        have htarget := contained_of_validateSymlinkTarget (hvetted target rfl)
        refine inside_append.2 (contained_append.2 ⟨htarget.mono (Nat.zero_le _), ?_⟩)
        exact depth_append ▸ hlink name rest target rfl hnode
      | file | special =>
        simp only [Option.map_some, Node.entry] at h
        split_ifs at h
        cases h
        exact hlow trivial

def GroundedStep (fs : FileSystem) (dest : List Name) (v w : Walk) : Prop :=
  Grounded fs dest v ∧ v.step fs.look = some w

theorem Inside.reached (hfs : Restored before dest fs) (hv : Inside dest v)
    (h : Relation.ReflTransGen (GroundedStep fs dest) v w) : Inside dest w := by
  induction h with
  | refl => exact hv
  | tail _ hstep ih => exact ih.step hfs hstep.1 hstep.2

end Walk

/-- A manifest accepted into an empty destination changes nothing outside it; and every
resolution of a path in the destination that follows its links with the guard met stays in it,
however many links it goes through. -/
theorem restored_home_contained {ρ : Type} {grants : Call → List Name → Bool}
    {readChunks : List ρ → Option (List (List UInt8))} {entries : List (ManifestEntry ρ)}
    {dest : List Name} {policy : RestorePolicy} {before fs : FileSystem}
    (hhome : EmptyHome dest before)
    (h : rehydrate grants readChunks entries dest policy before = .ok fs) :
    (∀ p, ¬ dest <+: p → fs p = before p) ∧
      ∀ path w, Contained 0 path →
        Relation.ReflTransGen (Walk.GroundedStep fs dest) ⟨dest, path⟩ w → dest <+: w.cwd := by
  have hfs := restored_of_rehydrate hhome h
  refine ⟨hfs.outside, fun path w hpath hwalk => ?_⟩
  have hstart : Walk.Inside dest ⟨dest, path⟩ :=
    ⟨List.prefix_refl dest, by simpa [Walk.depth] using hpath⟩
  exact (hstart.reached hfs hwalk).cwd

def sampleHome : List Name := [[0x68, 0x6f, 0x6d, 0x65]]

def sampleFs : FileSystem := fun p => if p <+: sampleHome then some (.dir {}) else none

theorem emptyHome_sampleFs : EmptyHome sampleHome sampleFs := by
  refine ⟨fun p hp => ?_, fun p hp => ?_⟩
  · simp [FileSystem.isDir, sampleFs, hp]
  · have hlong : ¬ sampleHome ++ p <+: sampleHome := by
      intro hpre
      have hlen := hpre.length_le
      rw [List.length_append] at hlen
      exact hp (List.length_eq_zero_iff.1 (by omega))
    simp [sampleFs, hlong]

def sampleLink (name target : List UInt8) : ManifestEntry Unit :=
  { relPathBytes := name, kind := .symlink, symlinkTarget := some target }

theorem Walk.grounded_singleton {fs : FileSystem} {dest cwd : List Name} {c : Component} :
    Grounded fs dest ⟨cwd, [c]⟩ := by
  intro name rest target htodo _
  cases htodo
  exact trivial

theorem Walk.grounded_curDir {fs : FileSystem} {dest cwd : List Name}
    {rest : List Component} : Grounded fs dest ⟨cwd, .curDir :: rest⟩ :=
  fun _ _ _ htodo => nomatch htodo

/-- A directory `a` and a link `b` to `./a`: the path `b` leads into `a`. -/
theorem restored_link_stays_inside :
    ∃ fs, rehydrate (fun _ _ => true) (fun _ => none)
        [{ relPathBytes := [0x61], kind := .dir, mode := 0o755 },
          sampleLink [0x62] [0x2e, 0x2f, 0x61]] sampleHome {} sampleFs = .ok fs ∧
      Relation.ReflTransGen (Walk.GroundedStep fs sampleHome)
        ⟨sampleHome, [.normal [0x62]]⟩ ⟨sampleHome ++ [[0x61]], []⟩ ∧
      (∀ p, ¬ sampleHome <+: p → fs p = sampleFs p) ∧ sampleHome <+: sampleHome ++ [[0x61]] := by
  refine ⟨_, rfl, ?_⟩
  obtain ⟨houtside, hinside⟩ := restored_home_contained emptyHome_sampleFs
    (show rehydrate (fun _ _ => true) (fun _ => none)
      [{ relPathBytes := [0x61], kind := .dir, mode := 0o755 },
        sampleLink [0x62] [0x2e, 0x2f, 0x61]] sampleHome {} sampleFs = .ok _ from rfl)
  refine ⟨?_, houtside, hinside [.normal [0x62]] ⟨sampleHome ++ [[0x61]], []⟩ (by decide) ?_⟩ <;>
  exact .head ⟨Walk.grounded_singleton, rfl⟩
    (.head ⟨Walk.grounded_curDir, rfl⟩ (.head ⟨Walk.grounded_singleton, rfl⟩ .refl))

/-- A link `c` to `.` and a link `l` to `c/..` pass the check, and `l` leads to the parent of
the destination. -/
theorem restored_link_escapes :
    EmptyHome sampleHome sampleFs ∧
      ∃ fs, rehydrate (fun _ _ => true) (fun _ => none)
          [sampleLink [0x63] [0x2e], sampleLink [0x6c] [0x63, 0x2f, 0x2e, 0x2e]]
          sampleHome {} sampleFs = .ok fs ∧
        Walk.Reaches fs.look
          ⟨sampleHome, [.normal [0x6c]]⟩ ⟨[], []⟩ ∧ ¬ sampleHome <+: [] := by
  refine ⟨emptyHome_sampleFs, _, rfl, ?_, by decide⟩
  -- `l` gives `c/..`, `c` gives `.`, and the `..` is then taken at the destination itself
  exact .head (b := ⟨sampleHome, [.normal [0x63], .parentDir]⟩) rfl
    (.head (b := ⟨sampleHome, [.curDir, .parentDir]⟩) rfl (.head rfl (.head rfl .refl)))

end Sentinel.Fs.HomeManifest
