import Mathlib.Tactic

set_option autoImplicit false

/-! # Paths and directory trees

A path is a text cut into segments at a separator. `resolve` follows the segments without
looking at a disk: an empty segment and a dot stay, two dots go up, any other segment is
entered. A path of proper names, joined to a directory, leads to a place inside it
(`inside_join`).

A directory tree knows for each path whether it is a file or a directory; whatever exists has a
directory above it. There is a tree with just the given files exactly if none of them lies
below another (`exists_fileTree_iff`). -/

namespace Launcher.Lib.Paths

/-! ## Resolving -/

/-- Where a path leads: from the root or from the working directory, and through which names. -/
structure Location (α : Type) where
  absolute : Bool
  segments : List (List α)

section Resolving

variable {α : Type} [DecidableEq α] (separator dot : α)

/-- One segment, with the names entered so far, the last one first. Above the root there is the
root; above the working directory there are further directories. -/
def enter (absolute : Bool) (trail : List (List α)) (segment : List α) : List (List α) :=
  if segment = [] ∨ segment = [dot] then trail
  else if segment = [dot, dot] then
    match trail with
    | [] => if absolute then [] else [segment]
    | last :: rest => if last = [dot, dot] then segment :: last :: rest else rest
  else segment :: trail

def isAbsolute (path : List α) : Bool := path.head? == some separator

def resolve (path : List α) : Location α where
  absolute := isAbsolute separator path
  segments :=
    ((path.splitOn separator).foldl (enter dot (isAbsolute separator path)) []).reverse

/-- `relative` as seen from `directory`. -/
def join (directory relative : List α) : List α :=
  if isAbsolute separator relative then relative
  else if directory = [] ∨ directory.getLast? = some separator then directory ++ relative
  else directory ++ separator :: relative

/-- The place is reached from the directory by entering at least one name, without going up. -/
def Inside (directory place : Location α) : Prop :=
  ∃ names, names ≠ [] ∧ [dot, dot] ∉ names ∧ place.absolute = directory.absolute ∧
    place.segments = directory.segments ++ names

/-- A segment that names something. -/
def ProperName (segment : List α) : Prop :=
  segment ≠ [] ∧ segment ≠ [dot] ∧ segment ≠ [dot, dot]

variable {separator dot}

theorem foldl_enter {absolute : Bool} {segments : List (List α)}
    (h : ∀ segment ∈ segments, ProperName dot segment) (trail : List (List α)) :
    segments.foldl (enter dot absolute) trail = segments.reverse ++ trail := by
  induction segments generalizing trail with
  | nil => rfl
  | cons segment rest ih =>
      obtain ⟨hempty, hdot, hdots⟩ := h segment List.mem_cons_self
      have henter : enter dot absolute trail segment = segment :: trail := by
        simp [enter, hempty, hdot, hdots]
      rw [List.foldl_cons, henter, ih (fun s hs => h s (List.mem_cons_of_mem _ hs)),
        List.reverse_cons, List.append_assoc, List.singleton_append]

theorem isAbsolute_join {directory relative : List α}
    (h : isAbsolute separator relative = false) :
    isAbsolute separator (join separator directory relative) = isAbsolute separator directory := by
  rw [join, h, if_neg (by decide)]
  cases directory with
  | nil => simpa [isAbsolute] using h
  | cons c rest =>
      split
      · rfl
      · rfl

/-- The segments of a joined path are those of both parts, up to one that stays in place. -/
theorem foldl_splitOn_join {absolute : Bool} {directory relative : List α}
    (h : isAbsolute separator relative = false) (trail : List (List α)) :
    ((join separator directory relative).splitOn separator).foldl (enter dot absolute) trail
      = (relative.splitOn separator).foldl (enter dot absolute)
          ((directory.splitOn separator).foldl (enter dot absolute) trail) := by
  have hstay : ∀ names, enter dot absolute names [] = names := fun names => by simp [enter]
  rw [join, h, if_neg (by decide)]
  split
  · rename_i hends
    -- no separator is added: the directory ends in an empty segment, which stays in place
    rcases hends with rfl | hlast
    · rw [List.nil_append, List.splitOn_nil, List.foldl_cons, List.foldl_nil, hstay]
    · obtain ⟨front, rfl⟩ := List.getLast?_eq_some_iff.mp hlast
      rw [List.append_assoc, List.singleton_append, List.splitOn_append_cons_self,
        List.splitOn_append_cons_self, List.foldl_append, List.foldl_append, List.splitOn_nil,
        List.foldl_cons, List.foldl_nil, hstay]
  · rw [List.splitOn_append_cons_self, List.foldl_append]

theorem resolve_join (directory : List α) {relative : List α}
    (h : ∀ segment ∈ relative.splitOn separator, ProperName dot segment) :
    (resolve separator dot (join separator directory relative)).absolute
      = (resolve separator dot directory).absolute ∧
    (resolve separator dot (join separator directory relative)).segments
      = (resolve separator dot directory).segments ++ relative.splitOn separator := by
  have hrelative : isAbsolute separator relative = false := by
    cases relative with
    | nil => rfl
    | cons c rest =>
        -- an absolute path begins with an empty segment
        by_contra habs
        have hc : c = separator := by simpa [isAbsolute] using habs
        subst hc
        have hsplit : (c :: rest).splitOn c = [] :: rest.splitOn c :=
          List.splitOn_append_cons_self [] rest
        exact (h [] (by rw [hsplit]; exact List.mem_cons_self)).1 rfl
  refine ⟨isAbsolute_join hrelative, ?_⟩
  rw [resolve, resolve, isAbsolute_join hrelative]
  rw [foldl_splitOn_join hrelative, foldl_enter h]
  simp

/-- **A path of proper names stays inside.** -/
theorem inside_join {relative : List α}
    (h : ∀ segment ∈ relative.splitOn separator, ProperName dot segment) (directory : List α) :
    Inside dot (resolve separator dot directory)
      (resolve separator dot (join separator directory relative)) := by
  obtain ⟨habsolute, hsegments⟩ := resolve_join directory h
  refine ⟨relative.splitOn separator, List.splitOn_ne_nil separator relative, ?_, habsolute,
    hsegments⟩
  intro hmem
  exact (h _ hmem).2.2 rfl

theorem splitOn_injective {path other : List α}
    (h : path.splitOn separator = other.splitOn separator) : path = other := by
  have hjoined := congrArg ([separator].intercalate ·) h
  simpa only [List.intercalate_splitOn] using hjoined

omit [DecidableEq α] in
theorem intercalate_append {first rest : List (List α)} (hfirst : first ≠ []) (hrest : rest ≠ []) :
    [separator].intercalate (first ++ rest)
      = [separator].intercalate first ++ separator :: [separator].intercalate rest := by
  induction first with
  | nil => exact absurd rfl hfirst
  | cons segment more ih =>
      by_cases hmore : more = []
      · rw [hmore, List.singleton_append, List.intercalate_cons_of_ne_nil hrest,
          List.intercalate_singleton]
        simp
      · rw [List.cons_append, List.intercalate_cons_of_ne_nil (by simp [hmore]), ih hmore,
          List.intercalate_cons_of_ne_nil hmore]
        simp

/-- One path is a directory above another exactly if its segments begin the other's. -/
theorem append_separator_prefix_iff {path other : List α} :
    path ++ [separator] <+: other ↔
      path.splitOn separator <+: other.splitOn separator ∧ path ≠ other := by
  constructor
  · rintro ⟨rest, rfl⟩
    rw [List.append_assoc, List.singleton_append, List.splitOn_append_cons_self]
    refine ⟨List.prefix_append _ _, fun heq => ?_⟩
    have hlength := congrArg List.length heq
    rw [List.length_append, List.length_cons] at hlength
    omega
  · rintro ⟨⟨rest, hrest⟩, hne⟩
    have hother : [separator].intercalate (path.splitOn separator ++ rest) = other := by
      rw [hrest, List.intercalate_splitOn]
    have hnil : rest ≠ [] := by
      rintro rfl
      rw [List.append_nil, List.intercalate_splitOn] at hother
      exact hne hother
    rw [← hother, intercalate_append (List.splitOn_ne_nil separator path) hnil,
      List.intercalate_splitOn]
    exact ⟨[separator].intercalate rest, by simp⟩

/-- The symbols of the segments are those of the path. -/
theorem exists_mem_splitOn {c : α} (hc : c ≠ separator) {path : List α} :
    (∃ segment ∈ path.splitOn separator, c ∈ segment) ↔ c ∈ path := by
  induction path with
  | nil => simp
  | cons b rest ih =>
      rw [List.splitOn_cons_eq_if_modifyHead]
      by_cases hb : b = separator
      · have hne : c ≠ b := fun heq => hc (heq.trans hb)
        simp only [hb, beq_self_eq_true, if_true, List.mem_cons, exists_eq_or_imp, ih]
        simp [hc]
      · obtain ⟨first, more, hpieces⟩ :=
          List.exists_cons_of_ne_nil (List.splitOn_ne_nil separator rest)
        rw [if_neg (by simpa using hb), hpieces]
        rw [hpieces] at ih
        simp only [List.mem_cons, exists_eq_or_imp] at ih
        simp only [List.modifyHead_cons, List.mem_cons, exists_eq_or_imp, ← ih]
        tauto

/-- A segment is what lies between two ends or separators. -/
theorem mem_splitOn_iff {segment path : List α} (hsegment : separator ∉ segment) :
    segment ∈ path.splitOn separator ↔
      ∃ front back, path = front ++ segment ++ back ∧
        (front = [] ∨ [separator] <:+ front) ∧ (back = [] ∨ [separator] <+: back) := by
  have hback : ∀ back, (back = [] ∨ [separator] <+: back) →
      segment ∈ (segment ++ back).splitOn separator := by
    rintro back (rfl | ⟨rest, rfl⟩)
    · rw [List.append_nil, List.splitOn_eq_singleton hsegment]
      exact List.mem_singleton_self segment
    · rw [List.singleton_append, List.splitOn_append_cons_self,
        List.splitOn_eq_singleton hsegment]
      exact List.mem_append_left _ (List.mem_singleton_self segment)
  constructor
  · intro hmem
    -- the segments before and after it, joined again, are what surrounds it
    obtain ⟨before, after, hsplit⟩ := List.append_of_mem hmem
    have hpath : [separator].intercalate (before ++ segment :: after) = path := by
      rw [← hsplit, List.intercalate_splitOn]
    have htail : ∃ back, [separator].intercalate (segment :: after) = segment ++ back ∧
        (back = [] ∨ [separator] <+: back) := by
      by_cases hafter : after = []
      · exact ⟨[], by simp [hafter], Or.inl rfl⟩
      · refine ⟨separator :: [separator].intercalate after, ?_, Or.inr ⟨_, rfl⟩⟩
        rw [List.intercalate_cons_of_ne_nil hafter]
        simp
    obtain ⟨back, hjoined, hends⟩ := htail
    by_cases hbefore : before = []
    · refine ⟨[], back, ?_, Or.inl rfl, hends⟩
      rw [← hpath, hbefore, List.nil_append, hjoined, List.nil_append]
    · refine ⟨[separator].intercalate before ++ [separator], back, ?_,
        Or.inr (List.suffix_append _ _), hends⟩
      rw [← hpath, intercalate_append hbefore (List.cons_ne_nil segment after), hjoined]
      simp
  · rintro ⟨front, back, rfl, rfl | ⟨rest, rfl⟩, hends⟩
    · exact hback back hends
    · rw [List.append_assoc, List.append_assoc, List.singleton_append,
        List.splitOn_append_cons_self]
      exact List.mem_append_right _ (hback back hends)

end Resolving

/-! ## Directory trees -/

inductive Node
  | file
  | directory
  deriving DecidableEq, Repr

structure FileTree (Name : Type) where
  node : List Name → Option Node
  root : node [] = some .directory
  parent : ∀ path name, node (path ++ [name]) ≠ none → node path = some .directory

section Trees

variable {Name : Type} {paths : List (List Name)}

/-- No path lies below another. -/
def PrefixFree (paths : List (List Name)) : Prop :=
  ∀ path ∈ paths, ∀ other ∈ paths, path <+: other → path = other

/-- Whatever exists below a path, the path is a directory. -/
theorem FileTree.above (tree : FileTree Name) {path rest : List Name} (hrest : rest ≠ [])
    (h : tree.node (path ++ rest) ≠ none) : tree.node path = some .directory := by
  induction rest using List.reverseRecOn with
  | nil => exact absurd rfl hrest
  | append_singleton front name ih =>
      have hfront : tree.node (path ++ front) = some .directory := by
        apply tree.parent _ name
        rwa [List.append_assoc]
      by_cases hnil : front = []
      · rwa [hnil, List.append_nil] at hfront
      · apply ih hnil
        rw [hfront]
        simp

/-- The tree of the given files and the directories above them. -/
def FileTree.spanned [DecidableEq Name] (paths : List (List Name)) (hroot : [] ∉ paths)
    (hfree : PrefixFree paths) : FileTree Name where
  node path :=
    if path ∈ paths then some .file
    else if path = [] ∨ ∃ other ∈ paths, path <+: other then some .directory
    else none
  root := by simp [hroot]
  parent path name h := by
    have hbelow : ∃ other ∈ paths, path ++ [name] <+: other := by
      by_contra hno
      apply h
      rw [if_neg (fun hmem => hno ⟨_, hmem, List.prefix_rfl⟩), if_neg]
      rintro (hnil | habove)
      · simp at hnil
      · exact hno habove
    obtain ⟨other, hmem, hstarts⟩ := hbelow
    have habove : path <+: other := (List.prefix_append path [name]).trans hstarts
    -- a file above a file would be the same file, and shorter
    have hpath : path ∉ paths := by
      intro hpath
      have heq := hfree path hpath other hmem habove
      have hlength := hstarts.length_le
      rw [← heq, List.length_append, List.length_singleton] at hlength
      omega
    rw [if_neg hpath, if_pos (Or.inr ⟨other, hmem, habove⟩)]

theorem FileTree.spanned_file_iff [DecidableEq Name] (hroot : [] ∉ paths)
    (hfree : PrefixFree paths) (path : List Name) :
    (FileTree.spanned paths hroot hfree).node path = some .file ↔ path ∈ paths := by
  unfold FileTree.spanned
  by_cases hmem : path ∈ paths
  · simp [hmem]
  · simp only [hmem, if_false, iff_false]
    split <;> simp

/-- Every name in the spanned tree is a name of one of the files. -/
theorem FileTree.spanned_names [DecidableEq Name] (hroot : [] ∉ paths)
    (hfree : PrefixFree paths) {path : List Name}
    (h : (FileTree.spanned paths hroot hfree).node path ≠ none) {name : Name}
    (hname : name ∈ path) : ∃ other ∈ paths, name ∈ other := by
  unfold FileTree.spanned at h
  simp only at h
  split at h
  · rename_i hmem
    exact ⟨path, hmem, hname⟩
  · split at h
    · rename_i habove
      rcases habove with rfl | ⟨other, hother, hstarts⟩
      · cases hname
      · exact ⟨other, hother, hstarts.subset hname⟩
    · exact absurd rfl h

/-- **The files of a tree.** There is a tree with exactly the given files if and only if none of
them is the root and none lies below another. -/
theorem exists_fileTree_iff [DecidableEq Name] :
    (∃ tree : FileTree Name, ∀ path, tree.node path = some .file ↔ path ∈ paths) ↔
      [] ∉ paths ∧ PrefixFree paths := by
  constructor
  · rintro ⟨tree, hfiles⟩
    constructor
    · intro hroot
      have hfile := (hfiles []).mpr hroot
      rw [tree.root] at hfile
      cases hfile
    · rintro path hpath other hother ⟨rest, rfl⟩
      by_contra hne
      have hrest : rest ≠ [] := by
        rintro rfl
        exact hne (List.append_nil path).symm
      -- what has a file below it is a directory
      have hdirectory := tree.above hrest (by rw [(hfiles _).mpr hother]; simp)
      rw [(hfiles path).mpr hpath] at hdirectory
      cases hdirectory
  · rintro ⟨hroot, hfree⟩
    exact ⟨FileTree.spanned paths hroot hfree, FileTree.spanned_file_iff hroot hfree⟩

end Trees

end Launcher.Lib.Paths
