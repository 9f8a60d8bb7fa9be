import Mathlib.Data.List.Induction
import Sentinel.Lib.PathWalk

/-! The links of a workspace that is imported (`sentinel-fs`, `workspace_import.rs`). The check
of a link resolves it in the captured tree with a stack of names and a queue of components,
into which the targets of the links on the way are spliced. It reads targets through
`Path::components`, which drops a `.` and a slash at the end; a resolver takes both as a step
that only a directory can make. -/

namespace Sentinel.Fs.WorkspaceImport

open Lib.PathText List

inductive Kind
  | directory
  | regular
  | symlink
  deriving DecidableEq

structure NativeNode where
  kind : Kind
  target : Option (List UInt8) := none

/-- What a census captures: the root and every node below it under its path, each in a
directory that is captured too. -/
structure NativeTree where
  get : List UInt8 → Option NativeNode
  root : (get []).map NativeNode.kind = some .directory
  named : ∀ path node, get path = some node →
    ∃ names : List Name, (∀ name ∈ names, IsName name) ∧ path = join names
  parent : ∀ (names : List Name) (name : Name) (node : NativeNode),
    get (join (names ++ [name])) = some node →
      (get (join names)).map NativeNode.kind = some .directory

inductive LinkError
  | invalidTarget
  | absolute
  | escapes
  | depthLimit
  | unresolved (path : List UInt8)
  | cyclic
  | traversesFile
  deriving DecidableEq

def dotDot : Name := [46, 46]

def pushComponents : List Component → Except LinkError (List Name)
  | [] => .ok []
  | .normal name :: rest => (pushComponents rest).map (name :: ·)
  | .parentDir :: rest => (pushComponents rest).map (dotDot :: ·)
  | .curDir :: rest => pushComponents rest
  | .rootDir :: _ => .error .absolute

def targetComponents (target : List UInt8) : Except LinkError (List Name) :=
  if target = [] ∨ 0 ∈ target then .error .invalidTarget else pushComponents (components target)

def maxDepth : ℕ := 64

/-- The loop of `validate_symlink`. A link costs a hop, of which there are forty; every other
component shortens the queue. -/
def followComponents (tree : NativeTree) (path : List UInt8) (stack : List Name) (hops : ℕ)
    (pending : List Name) : Except LinkError Unit :=
  match pending with
  | [] => .ok ()
  | component :: pending =>
    if component = dotDot then
      if stack = [] then .error .escapes
      else followComponents tree path stack.dropLast hops pending
    else if maxDepth < stack.length + 1 then .error .depthLimit
    else
      match tree.get (join (stack ++ [component])) with
      | none => .error (.unresolved path)
      | some node =>
        if node.kind = .symlink then
          if 40 < hops + 1 then .error .cyclic
          else
            match targetComponents (node.target.getD []) with
            | .error e => .error e
            | .ok expansion => followComponents tree path stack (hops + 1) (expansion ++ pending)
        else if pending ≠ [] ∧ node.kind ≠ .directory then .error .traversesFile
        else followComponents tree path (stack ++ [component]) hops pending
termination_by (40 - hops, pending.length)

def parentText (path : List UInt8) : List UInt8 :=
  ((path.reverse.dropWhile (· ≠ separator)).drop 1).reverse

def validateSymlink (tree : NativeTree) (path target : List UInt8) : Except LinkError Unit := do
  let pending ← targetComponents target
  followComponents tree path (((parentText path).splitOn separator).filter (· ≠ [])) 0 pending

/-- The components of a target as a resolver takes them: a slash at the end asks for a
directory, as a `.` there would. -/
def targetSteps (target : List UInt8) : List Component :=
  steps target ++ if target.getLast? = some separator then [.curDir] else []

def NativeNode.entry (node : NativeNode) : Entry :=
  match node.kind with
  | .directory => .directory
  | .regular => .leaf
  | .symlink => .link (targetSteps (node.target.getD []))

def NativeTree.look (tree : NativeTree) (names : List Name) : Option Entry :=
  (tree.get (join names)).map NativeNode.entry

theorem NativeTree.look_eq {tree : NativeTree} {names : List Name} {node : NativeNode}
    (h : tree.get (join names) = some node) {entry : Entry} (hentry : node.entry = entry) :
    tree.look names = some entry := by
  rw [look, h, Option.map_some, hentry]

theorem NativeNode.entry_eq_directory {node : NativeNode} :
    node.entry = .directory ↔ node.kind = .directory := by
  unfold entry
  cases node.kind <;> simp

section Check

def queued : List Component → List Name
  | [] => []
  | .normal name :: rest => name :: queued rest
  | .parentDir :: rest => dotDot :: queued rest
  | .curDir :: rest | .rootDir :: rest => queued rest

def Relative (todo : List Component) : Prop := ∀ c ∈ todo, c ≠ .rootDir ∧ c ≠ .normal dotDot

theorem queued_append (a b : List Component) : queued (a ++ b) = queued a ++ queued b := by
  induction a with
  | nil => rfl
  | cons c a ih => cases c <;> simp [queued, ih]

theorem queued_filter (todo : List Component) :
    queued (todo.filter (· ≠ .curDir)) = queued todo := by
  induction todo with
  | nil => rfl
  | cons c rest ih => cases c <;> simpa [queued] using ih

theorem queued_eq_nil {todo : List Component} (h : Relative todo) (hnil : queued todo = []) :
    ∀ c ∈ todo, c = .curDir := by
  induction todo with
  | nil => exact fun c hc => absurd hc not_mem_nil
  | cons c rest ih =>
    obtain ⟨hc, hrest⟩ := forall_mem_cons.1 h
    cases c with
    | rootDir => exact absurd rfl hc.1
    | curDir => exact forall_mem_cons.2 ⟨rfl, ih hrest hnil⟩
    | parentDir => cases hnil
    | normal name => cases hnil

variable {names : List Name}

theorem pushComponents_eq_ok {todo : List Component} (h : pushComponents todo = .ok names) :
    names = queued todo ∧ .rootDir ∉ todo := by
  induction todo generalizing names with
  | nil =>
    cases h
    exact ⟨rfl, not_mem_nil⟩
  | cons c rest ih =>
    cases c with
    | rootDir => cases h
    | curDir =>
      obtain ⟨hnames, hroot⟩ := ih h
      exact ⟨hnames, by simpa using hroot⟩
    | parentDir =>
      cases hrest : pushComponents rest with
      | error e => simp [pushComponents, hrest, Except.map] at h
      | ok names' =>
        obtain rfl : dotDot :: names' = names := by
          simpa [pushComponents, hrest, Except.map] using h
        obtain ⟨rfl, hroot⟩ := ih hrest
        exact ⟨rfl, by simpa using hroot⟩
    | normal name =>
      cases hrest : pushComponents rest with
      | error e => simp [pushComponents, hrest, Except.map] at h
      | ok names' =>
        obtain rfl : name :: names' = names := by
          simpa [pushComponents, hrest, Except.map] using h
        obtain ⟨rfl, hroot⟩ := ih hrest
        exact ⟨rfl, by simpa using hroot⟩

theorem queued_components (target : List UInt8) :
    queued (components target) = queued (steps target) := by
  unfold components
  split
  · next h => rw [h]
  · next c rest h =>
    rw [h]
    cases c <;> simp only [queued, queued_filter]

theorem rootDir_mem_components {target : List UInt8} (h : .rootDir ∈ steps target) :
    .rootDir ∈ components target := by
  unfold components
  split
  · next hnil => rwa [hnil] at h
  · next c rest hcons =>
    rw [hcons] at h
    rcases mem_cons.1 h with rfl | hrest
    · exact mem_cons_self
    · exact mem_cons_of_mem _ (mem_filter.2 ⟨hrest, rfl⟩)

theorem normal_dotDot_not_mem_steps (target : List UInt8) : .normal dotDot ∉ steps target := by
  intro h
  rcases mem_append.1 h with h | h
  · split_ifs at h
    · simp at h
    · cases h
  · obtain ⟨part, -, hpart⟩ := mem_map.1 h
    unfold component at hpart
    split_ifs at hpart with hdot hdots
    exact hdots (Component.normal.inj hpart)

theorem targetComponents_eq_ok {target : List UInt8} (h : targetComponents target = .ok names) :
    names = queued (targetSteps target) ∧ Relative (targetSteps target) := by
  unfold targetComponents at h
  split_ifs at h
  obtain ⟨rfl, hroot⟩ := pushComponents_eq_ok h
  constructor
  · rw [queued_components, targetSteps, queued_append]
    split_ifs <;> simp [queued]
  · intro c hc
    rcases mem_append.1 hc with hc | hc
    · refine ⟨?_, ?_⟩
      · rintro rfl
        exact hroot (rootDir_mem_components hc)
      · rintro rfl
        exact normal_dotDot_not_mem_steps target hc
    · split_ifs at hc
      · obtain rfl : c = .curDir := by simpa using hc
        exact ⟨by simp, by simp⟩
      · cases hc

def IsDirectory (tree : NativeTree) (names : List Name) : Prop :=
  tree.look names = some .directory

variable {tree : NativeTree}

theorem isDirectory_parent {parent : List Name} {name : Name} {node : NativeNode}
    (h : tree.get (join (parent ++ [name])) = some node) : IsDirectory tree parent := by
  obtain ⟨above, habove, hkind⟩ := Option.map_eq_some_iff.1 (tree.parent parent name node h)
  exact tree.look_eq habove (NativeNode.entry_eq_directory.2 hkind)

theorem IsDirectory.dropLast (h : IsDirectory tree names) : IsDirectory tree names.dropLast := by
  rcases eq_nil_or_concat names with rfl | ⟨parent, name, rfl⟩
  · exact h
  · obtain ⟨node, hnode, -⟩ := Option.map_eq_some_iff.1 h
    rw [concat_eq_append, dropLast_concat]
    rw [concat_eq_append] at hnode
    exact isDirectory_parent hnode

theorem followed_of_followComponents {path : List UInt8} {stack : List Name} {hops : ℕ}
    {todo : List Component} (hrel : Relative todo) (hdir : IsDirectory tree stack)
    (h : followComponents tree path stack hops (queued todo) = .ok ()) :
    Walk.Followed tree.look ⟨stack, todo⟩ := by
  match todo with
  | [] => exact .of_end rfl (Option.isSome_of_eq_some hdir)
  | .rootDir :: rest => exact absurd rfl (hrel _ mem_cons_self).1
  | .curDir :: rest =>
    have hrest : Relative rest := fun c hc => hrel c (mem_cons_of_mem _ hc)
    exact .of_step rfl (by simp [Walk.Rises]) (followed_of_followComponents hrest hdir h)
  | .parentDir :: rest =>
    have hrest : Relative rest := fun c hc => hrel c (mem_cons_of_mem _ hc)
    rw [queued, followComponents, if_pos rfl] at h
    split_ifs at h with hstack
    refine .of_step (w := ⟨stack.dropLast, rest⟩) rfl ?_
      (followed_of_followComponents hrest hdir.dropLast h)
    simp [Walk.Rises, hstack]
  | .normal name :: rest =>
    obtain ⟨hname, hrest⟩ := forall_mem_cons.1 hrel
    have hinside : ¬ Walk.Rises ⟨stack, .normal name :: rest⟩ := by simp [Walk.Rises]
    have hdots : name ≠ dotDot := fun heq => hname.2 (congrArg _ heq)
    rw [queued, followComponents, if_neg hdots] at h
    have hdepth : ¬ maxDepth < stack.length + 1 := by
      intro hdeep
      simp [hdeep] at h
    rw [if_neg hdepth] at h
    cases hnode : tree.get (join (stack ++ [name])) with
    | none => simp [hnode] at h
    | some node =>
      simp only [hnode] at h
      cases hkind : node.kind with
      | symlink =>
        rw [if_pos hkind] at h
        have hhops : ¬ 40 < hops + 1 := by
          intro hmany
          simp [hmany] at h
        rw [if_neg hhops] at h
        cases htarget : targetComponents (node.target.getD []) with
        | error e => simp [htarget] at h
        | ok expansion =>
          simp only [htarget] at h
          obtain ⟨rfl, hexpansion⟩ := targetComponents_eq_ok htarget
          have hrel' : Relative (targetSteps (node.target.getD []) ++ rest) := by
            intro c hc
            rcases mem_append.1 hc with hc | hc
            · exact hexpansion c hc
            · exact hrest c hc
          rw [← queued_append] at h
          have hentry : node.entry = .link (targetSteps (node.target.getD [])) := by
            rw [NativeNode.entry, hkind]
          exact .of_step (Walk.step_link (tree.look_eq hnode hentry)) hinside
            (followed_of_followComponents hrel' hdir h)
      | directory =>
        have hnext : IsDirectory tree (stack ++ [name]) :=
          tree.look_eq hnode (NativeNode.entry_eq_directory.2 hkind)
        simp only [hkind, reduceCtorEq, if_false, ne_eq, not_true, and_false] at h
        exact .of_step (Walk.step_directory hnext) hinside
          (followed_of_followComponents hrest hnext h)
      | regular =>
        have hqueue : queued rest = [] := by
          by_contra hne
          simp [hkind, hne] at h
        have hleaf : tree.look (stack ++ [name]) = some .leaf :=
          tree.look_eq hnode (by rw [NativeNode.entry, hkind])
        by_cases hend : rest = []
        · subst hend
          exact .of_step ((Walk.step_leaf hleaf).trans (if_pos rfl)) hinside
            (.of_end rfl (Option.isSome_of_eq_some hleaf))
        · exact .of_atLeaf ⟨name, rest, rfl, hend, queued_eq_nil hrest hqueue, hleaf⟩
termination_by (40 - hops, todo.length)

theorem IsDirectory.of_append {below : List Name} (h : IsDirectory tree (names ++ below)) :
    IsDirectory tree names := by
  induction below using List.reverseRecOn with
  | nil => simpa using h
  | append_singleton below name ih =>
    apply ih
    rw [← append_assoc] at h
    simpa using h.dropLast

theorem followed_of_directories (names : List Name) {below : List Name} {rest : List Component}
    (hdir : IsDirectory tree (names ++ below))
    (h : Walk.Followed tree.look ⟨names ++ below, rest⟩) :
    Walk.Followed tree.look ⟨names, below.map .normal ++ rest⟩ := by
  induction below generalizing names with
  | nil => simpa using h
  | cons name below ih =>
    rw [append_cons] at hdir h
    have hnext : IsDirectory tree (names ++ [name]) := hdir.of_append
    exact .of_step (Walk.step_directory hnext) (by simp [Walk.Rises]) (ih _ hdir h)

theorem parentText_join {parent : List Name} {name : Name} (hname : separator ∉ name) :
    parentText (join (parent ++ [name])) = join parent := by
  have hdrop : ∀ front : List UInt8,
      (name.reverse ++ front).dropWhile (· ≠ separator) = front.dropWhile (· ≠ separator) := by
    intro front
    apply dropWhile_append_of_pos
    intro byte hbyte
    rw [mem_reverse] at hbyte
    exact decide_eq_true fun heq => hname (heq ▸ hbyte)
  have hjoin : join [name] = name := by simp [join, List.intercalate]
  by_cases hparent : parent = []
  · have hsingle := hdrop []
    rw [append_nil, dropWhile_nil] at hsingle
    rw [hparent, nil_append, hjoin, parentText, hsingle]
    rfl
  · rw [parentText, join_append hparent (cons_ne_nil _ _), hjoin]
    simp only [reverse_append, reverse_cons, append_assoc]
    rw [hdrop]
    simp

theorem split_join (h : ∀ name ∈ names, IsName name) :
    ((join names).splitOn separator).filter (· ≠ []) = names := by
  by_cases hne : names = []
  · subst hne
    decide
  · have hsplit : (join names).splitOn separator = names :=
      splitOn_intercalate separator (fun name hname => (h name hname).2.1) hne
    rw [hsplit]
    exact filter_eq_self.2 fun name hname => decide_eq_true (h name hname).1

/-- A link that the check accepts never leads out of the tree, and resolving it ends at an entry
of the tree exactly when it does not come to a regular file with a `.` or a slash after it. -/
theorem accepted_link_followed (tree : NativeTree) (path target : List UInt8)
    (hlink : tree.get path = some ⟨.symlink, some target⟩)
    (h : validateSymlink tree path target = .ok ()) :
    (∀ w, Walk.Reaches tree.look ⟨[], steps path⟩ w → ¬ w.Rises) ∧
      (Walk.Resolves tree.look ⟨[], steps path⟩ ↔
        ∀ w, Walk.Reaches tree.look ⟨[], steps path⟩ w → ¬ w.AtLeaf tree.look) := by
  obtain ⟨names, hnames, rfl⟩ := tree.named path _ hlink
  rcases eq_nil_or_concat names with rfl | ⟨parent, name, rfl⟩
  · -- the root is a directory
    have hroot := tree.root
    rw [show join [] = [] from rfl] at hlink
    rw [hlink] at hroot
    cases hroot
  rw [concat_eq_append] at hnames hlink h ⊢
  have hparent : ∀ n ∈ parent, IsName n := fun n hn => hnames n (mem_append_left _ hn)
  have hname : IsName name := hnames name (by simp)
  have hdir : IsDirectory tree parent := isDirectory_parent hlink
  obtain ⟨pending, hpending, hfollow⟩ : ∃ pending, targetComponents target = .ok pending ∧
      followComponents tree (join (parent ++ [name])) parent 0 pending = .ok () := by
    cases hpending : targetComponents target with
    | error e => simp [validateSymlink, hpending, bind, Except.bind] at h
    | ok pending =>
      refine ⟨pending, rfl, ?_⟩
      simpa only [validateSymlink, hpending, bind, Except.bind, parentText_join hname.2.1,
        split_join hparent] using h
  obtain ⟨rfl, hrel⟩ := targetComponents_eq_ok hpending
  have hwalk : Walk.Followed tree.look ⟨parent, [.normal name]⟩ := by
    refine .of_step (Walk.step_link (tree.look_eq hlink rfl)) (by simp [Walk.Rises]) ?_
    rw [append_nil]
    exact followed_of_followComponents hrel hdir hfollow
  have hstart : Walk.Followed tree.look ⟨[], steps (join (parent ++ [name]))⟩ := by
    rw [steps_join hnames (by simp), map_append]
    exact followed_of_directories [] hdir hwalk
  exact ⟨hstart.inside, hstart.ends⟩

/-- A directory `d` with a file `f` in it, and a link `l`. -/
def linkTree (target : List UInt8) : NativeTree where
  get path :=
    if path = [] ∨ path = [100] then some ⟨.directory, none⟩
    else if path = [100, 47, 102] then some ⟨.regular, none⟩
    else if path = [108] then some ⟨.symlink, some target⟩
    else none
  root := rfl
  named path node h := by
    split_ifs at h with hdir hfile hlink
    · rcases hdir with hroot | hdir
      · exact ⟨[], by simp, hroot⟩
      · exact ⟨[[100]], by simp [IsName, separator], hdir⟩
    · exact ⟨[[100], [102]], by simp [IsName, separator], hfile⟩
    · exact ⟨[[108]], by simp [IsName, separator], hlink⟩
  parent names name node h := by
    by_cases hnames : names = []
    · rw [hnames]
      rfl
    · have hjoin := join_append hnames (cons_ne_nil name [])
      generalize join names = front at hjoin ⊢
      generalize join [name] = back at hjoin
      rw [hjoin] at h
      rcases front with _ | ⟨x, _ | ⟨y, front⟩⟩
      · simp [separator] at h
      · by_cases hx : x = 100
        · simp [hx]
        · simp [separator, hx] at h
      · obtain ⟨⟨-, -, hrest⟩, -⟩ : (x = 100 ∧ y = 47 ∧ front ++ 47 :: back = [102]) ∧ _ := by
          simpa [separator] using h
        have hmem : 47 ∈ front ++ 47 :: back := mem_append_right _ mem_cons_self
        rw [hrest] at hmem
        exact absurd hmem (by decide)

def longTarget : List UInt8 := [100, 47, 46, 46, 47, 100, 47, 102]

/-- The link `l` to `d/../d/f` is accepted and leads to the file. -/
theorem accepted_link_resolves :
    validateSymlink (linkTree longTarget) [108] longTarget = .ok () ∧
      Walk.Resolves (linkTree longTarget).look ⟨[], steps [108]⟩ ∧
      ∀ w, Walk.Reaches (linkTree longTarget).look ⟨[], steps [108]⟩ w →
        ¬ w.Rises ∧ ¬ w.AtLeaf (linkTree longTarget).look := by
  have haccepted : validateSymlink (linkTree longTarget) [108] longTarget = .ok () := by
    have hstack : ((parentText [108]).splitOn separator).filter (· ≠ []) = [] := by decide
    have htarget : targetComponents longTarget = .ok [[100], dotDot, [100], [102]] := by decide
    have hdir : (linkTree longTarget).get (join [[100]]) = some ⟨.directory, none⟩ := rfl
    have hfile : (linkTree longTarget).get (join [[100], [102]]) = some ⟨.regular, none⟩ := rfl
    rw [validateSymlink, htarget, hstack]
    change followComponents _ _ [] 0 [[100], dotDot, [100], [102]] = _
    simp [followComponents, hdir, hfile, dotDot, maxDepth]
  have hresolves : Walk.Resolves (linkTree longTarget).look ⟨[], steps [108]⟩ := by
    refine ⟨⟨[[100], [102]], []⟩, ?_, rfl, by decide⟩
    -- the link, and one step for each component of its target
    exact .head (b := ⟨[], targetSteps longTarget⟩) (by decide)
      (.head (b := ⟨[[100]], [.parentDir, .normal [100], .normal [102]]⟩) (by decide)
        (.head rfl (.head rfl (.head rfl .refl))))
  have hfollowed := accepted_link_followed _ [108] longTarget rfl haccepted
  exact ⟨haccepted, hresolves, fun w hw => ⟨hfollowed.1 w hw, hfollowed.2.1 hresolves w hw⟩⟩

def dottedTarget : List UInt8 := [100, 47, 102, 47, 46]

/-- The link `l` to `d/f/.` is accepted, and it leads nowhere: `f` is a file. -/
theorem accepted_link_unresolved :
    validateSymlink (linkTree dottedTarget) [108] dottedTarget = .ok () ∧
      ¬ Walk.Resolves (linkTree dottedTarget).look ⟨[], steps [108]⟩ := by
  have hstack : ((parentText [108]).splitOn separator).filter (· ≠ []) = [] := by decide
  have htarget : targetComponents dottedTarget = .ok [[100], [102]] := by decide
  have hdir : (linkTree dottedTarget).get (join [[100]]) = some ⟨.directory, none⟩ := rfl
  have hfile : (linkTree dottedTarget).get (join [[100], [102]]) = some ⟨.regular, none⟩ := rfl
  refine ⟨?_, ?_⟩
  · rw [validateSymlink, htarget, hstack]
    change followComponents _ _ [] 0 [[100], [102]] = _
    simp [followComponents, hdir, hfile, dotDot, maxDepth]
  · rintro ⟨w, hw, hend, -⟩
    have hlink : Walk.step (linkTree dottedTarget).look ⟨[], steps [108]⟩ =
        some ⟨[], targetSteps dottedTarget⟩ := by decide
    have hdown : Walk.step (linkTree dottedTarget).look ⟨[], targetSteps dottedTarget⟩ =
        some ⟨[[100]], [.normal [102], .curDir]⟩ := by decide
    have hstuck : Walk.step (linkTree dottedTarget).look ⟨[[100]], [.normal [102], .curDir]⟩ =
        none := by decide
    rw [Walk.reaches_iff_of_step hlink, Walk.reaches_iff_of_step hdown,
      Walk.reaches_iff_of_stop hstuck] at hw
    rcases hw with rfl | rfl | rfl <;> exact absurd hend (by decide)

end Check

end Sentinel.Fs.WorkspaceImport
