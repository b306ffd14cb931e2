import EntityQuery.Proofs.Joins.Union
import EntityQuery.Proofs.Text.Dots
import Mathlib.Data.List.Nodup

/-!
# The paths of a tree of relations, listed

A tree lists one text for each of its nodes. Taken name by name, the paths to the nodes come in
strictly increasing order (`pairwise_nodes`): a path before those that go on from it, and names
beside each other in their order. The text of a path is put together from its names on the way down
(`paths_eq_map_nodes`). Where all names are plain, that is neither empty nor with dots of their own,
it is the names joined with dots; different nodes then have different texts, and adding the listed
paths to the empty tree makes the tree again (`paths_list_nodes`).
-/

namespace EntityQuery.JoinTree

/-! ## Nodes -/

mutual

/-- The paths to the nodes of a tree, each before those that go on from it. -/
def nodes : JoinTree → List (List String)
  | node children => nodesOf children
termination_by structural t => t

/-- The paths that begin with the names of a node. -/
def nodesOf : List (String × JoinTree) → List (List String)
  | [] => []
  | (name, below) :: rest => [name] :: ((nodes below).map (name :: ·) ++ nodesOf rest)
termination_by structural children => children

end

variable {t below : JoinTree} {children : List (String × JoinTree)}

theorem exists_cons_of_mem_nodesOf {path : List String} (h : path ∈ nodesOf children) :
    ∃ name rest, path = name :: rest ∧ name ∈ Dict.keys children := by
  induction children with
  | nil => cases h
  | cons entry children ih =>
    obtain ⟨first, below⟩ := entry
    have hkeys : Dict.keys ((first, below) :: children) = first :: Dict.keys children := rfl
    rw [nodesOf, List.mem_cons, List.mem_append] at h
    rcases h with rfl | h | h
    · exact ⟨first, [], rfl, List.mem_cons_self⟩
    · obtain ⟨rest, -, rfl⟩ := List.mem_map.1 h
      exact ⟨first, rest, rfl, List.mem_cons_self⟩
    · obtain ⟨name, rest, rfl, hname⟩ := ih h
      exact ⟨name, rest, rfl, List.mem_cons_of_mem _ hname⟩

mutual

/-- The nodes of a tree are the ends of its paths. -/
theorem mem_nodes_iff : ∀ {t : JoinTree}, t.Ordered → ∀ {path : List String},
    path ∈ t.nodes ↔ path ≠ [] ∧ t.Has path
  | node children, h, path => by
    cases path with
    | nil =>
      refine iff_of_false (fun hmem => ?_) (fun hne => hne.1 rfl)
      obtain ⟨name, rest, heq, -⟩ := exists_cons_of_mem_nodesOf hmem
      cases heq
    | cons name rest =>
      exact (mem_nodesOf_iff h.1 h.2).trans (by simp [Has, get?, JoinTree.children])

theorem mem_nodesOf_iff : ∀ {children : List (String × JoinTree)}, Dict.Sorted children →
    OrderedBelow children → ∀ {name : String} {rest : List String},
      name :: rest ∈ nodesOf children ↔
        ∃ below, Dict.get? children name = some below ∧ below.Has rest
  | [], _, _, name, rest => by simp [nodesOf]
  | (first, below) :: children, hs, ho, name, rest => by
    have hrest : name :: rest ∈ nodesOf children ↔
        ∃ below, Dict.get? children name = some below ∧ below.Has rest :=
      mem_nodesOf_iff (Dict.sorted_cons.1 hs).2 ho.2
    rw [nodesOf, List.mem_cons, List.mem_append, Dict.get?_cons]
    by_cases hname : name = first
    · subst hname
      have hlater : name :: rest ∉ nodesOf children := by
        intro hmem
        obtain ⟨below, hget, -⟩ := hrest.1 hmem
        exact String.lt_irrefl _ ((Dict.sorted_cons.1 hs).1 name (Dict.mem_keys_of_get? hget))
      have hbelow : name :: rest ∈ (nodes below).map (name :: ·) ↔ rest ≠ [] ∧ below.Has rest := by
        rw [← mem_nodes_iff ho.1]
        simp
      rw [if_pos rfl, hbelow, or_iff_left hlater]
      by_cases hnil : rest = []
      · simp [hnil]
      · simp [hnil]
    · have hhead : name :: rest ∉ (nodes below).map (first :: ·) := by
        simp [Ne.symm hname]
      rw [if_neg hname, or_iff_right (by simp [hname]), or_iff_right hhead, hrest]

end

/-! ## Order -/

mutual

/-- Nodes are listed in the order of their names, a path before those that go on from it. -/
theorem pairwise_nodes : ∀ {t : JoinTree}, t.Ordered → t.nodes.Pairwise (· < ·)
  | node _, h => pairwise_nodesOf h.1 h.2

theorem pairwise_nodesOf : ∀ {children : List (String × JoinTree)}, Dict.Sorted children →
    OrderedBelow children → (nodesOf children).Pairwise (· < ·)
  | [], _, _ => List.Pairwise.nil
  | (first, below) :: children, hs, ho => by
    obtain ⟨hfirst, hs⟩ := Dict.sorted_cons.1 hs
    have hlater : ∀ path ∈ nodesOf children, ∀ rest, first :: rest < path := by
      intro path hpath rest
      obtain ⟨name, more, rfl, hname⟩ := exists_cons_of_mem_nodesOf hpath
      exact List.cons_lt_cons_iff.2 (.inl (hfirst name hname))
    have hbelow : ((nodes below).map (first :: ·)).Pairwise (· < ·) := by
      refine List.pairwise_map.2 ((pairwise_nodes ho.1).imp fun hlt => ?_)
      exact List.cons_lt_cons_iff.2 (.inr ⟨rfl, hlt⟩)
    rw [nodesOf, List.pairwise_cons, List.pairwise_append]
    refine ⟨fun path hpath => ?_, hbelow, pairwise_nodesOf hs ho.2, ?_⟩
    · rcases List.mem_append.1 hpath with hpath | hpath
      · obtain ⟨rest, hrest, rfl⟩ := List.mem_map.1 hpath
        obtain ⟨name, more, rfl⟩ := List.exists_cons_of_ne_nil ((mem_nodes_iff ho.1).1 hrest).1
        exact List.cons_lt_cons_iff.2 (.inr ⟨rfl, List.nil_lt_cons _ _⟩)
      · exact hlater path hpath []
    · intro path hpath other hother
      obtain ⟨rest, -, rfl⟩ := List.mem_map.1 hpath
      exact hlater other hother rest

end

/-! ## Texts -/

/-- The text of a path, put together on the way down. -/
def inDots (path : List String) : String := path.foldl joinPath ""

mutual

theorem pathsBelow_eq_map_nodes (before : String) : ∀ t : JoinTree,
    t.pathsBelow before = t.nodes.map (·.foldl joinPath before)
  | node children => pathsOf_eq_map_nodesOf before children

theorem pathsOf_eq_map_nodesOf (before : String) : ∀ children : List (String × JoinTree),
    pathsOf before children = (nodesOf children).map (·.foldl joinPath before)
  | [] => rfl
  | (name, below) :: children => by
    rw [pathsOf, nodesOf, List.map_cons, List.map_append, List.map_map,
      pathsBelow_eq_map_nodes (joinPath before name) below, pathsOf_eq_map_nodesOf before children]
    rfl

end

/-- What a tree lists are the texts of the paths to its nodes. -/
theorem paths_eq_map_nodes (t : JoinTree) : t.paths = t.nodes.map inDots :=
  pathsBelow_eq_map_nodes "" t

/-- A name that can be told from what the dots around it join. -/
def IsPlain (name : String) : Prop := name ≠ "" ∧ '.' ∉ name.toList

instance (name : String) : Decidable (IsPlain name) :=
  inferInstanceAs (Decidable (name ≠ "" ∧ '.' ∉ name.toList))

/-- All names of the tree are plain. -/
def Plain (t : JoinTree) : Prop := ∀ path, t.Has path → ∀ name ∈ path, IsPlain name

theorem plain_iff (h : t.Ordered) : t.Plain ↔ ∀ path ∈ t.nodes, ∀ name ∈ path, IsPlain name := by
  constructor
  · intro hplain path hpath
    exact hplain path ((mem_nodes_iff h).1 hpath).2
  · intro hnodes path hhas name hname
    exact hnodes path ((mem_nodes_iff h).2 ⟨List.ne_nil_of_mem hname, hhas⟩) name hname

theorem foldl_joinPath {before : String} (hbefore : before ≠ "") {path : List String}
    (hpath : path ≠ []) :
    path.foldl joinPath before = before ++ "." ++ ".".intercalate path := by
  induction path generalizing before with
  | nil => exact absurd rfl hpath
  | cons name rest ih =>
    have hjoin : joinPath before name = before ++ "." ++ name := by
      simp [joinPath, hbefore]
    rw [List.foldl_cons, hjoin]
    cases rest with
    | nil => simp
    | cons next rest =>
      rw [ih (by simp) (by simp), String.intercalate_cons_cons]
      simp only [String.append_assoc]

/-- The text of a path of plain names is these names joined with dots. -/
theorem inDots_eq_intercalate {path : List String} (h : ∀ name ∈ path, IsPlain name) :
    inDots path = ".".intercalate path := by
  cases path with
  | nil => rfl
  | cons name rest =>
    have hname : name ≠ "" := (h name List.mem_cons_self).1
    show rest.foldl joinPath name = ".".intercalate (name :: rest)
    cases rest with
    | nil => simp
    | cons next rest =>
      rw [foldl_joinPath hname (by simp), String.intercalate_cons_cons]

/-- The text of a path of plain names is split into these names again. -/
theorem dotted_inDots {path : List String} (hne : path ≠ []) (h : ∀ name ∈ path, IsPlain name) :
    Text.dotted (inDots path) = path := by
  rw [inDots_eq_intercalate h, Text.dotted_intercalate hne fun name hname => (h name hname).2]

/-! ## Making a tree from its paths -/

theorem Has.of_append {path more : List String} (h : t.Has (path ++ more)) : t.Has path := by
  induction path generalizing t with
  | nil => exact has_nil t
  | cons name rest ih =>
    obtain ⟨below, hget, hbelow⟩ := h
    exact ⟨below, hget, ih hbelow⟩

/-- Adding the paths to the nodes of a tree, in whatever order, to the empty tree makes the tree. -/
theorem foldl_insertPath_nodes (h : t.Ordered) {listed : List (List String)}
    (hlisted : ∀ path, path ∈ listed ↔ path ∈ t.nodes) : listed.foldl insertPath empty = t := by
  have hadds : Adds (listed.foldl insertPath) fun path => ∃ added ∈ listed, path <+: added :=
    adds_foldl fun added _ => fun tree htree =>
      ⟨htree.insertPath added, fun path _ => has_insertPath htree⟩
  refine hadds.hasExactly.unique ⟨h, fun path hne => ?_⟩
  simp only [hlisted, mem_nodes_iff h]
  constructor
  · intro hpath
    exact ⟨path, ⟨hne, hpath⟩, List.prefix_refl path⟩
  · rintro ⟨added, ⟨-, hadded⟩, more, rfl⟩
    exact hadded.of_append

/-- **A tree lists each of its nodes once, in order.** The paths to its nodes increase strictly,
name by name, and what is listed is their texts. If all names are plain, these texts are the names
joined with dots, no two of them are the same, and the paths that they are split into make the tree
again, in whatever order they are added. -/
theorem paths_list_nodes (h : t.Ordered) :
    (∃ nodes : List (List String), nodes.Pairwise (· < ·) ∧
      (∀ path, path ∈ nodes ↔ path ≠ [] ∧ t.Has path) ∧ t.paths = nodes.map inDots) ∧
    (t.Plain → (∀ path, t.Has path → inDots path = ".".intercalate path) ∧ t.paths.Nodup ∧
      ∀ listed : List String, listed.Perm t.paths →
        (listed.map Text.dotted).foldl insertPath empty = t) := by
  refine ⟨⟨t.nodes, pairwise_nodes h, fun _ => mem_nodes_iff h, paths_eq_map_nodes t⟩,
    fun hplain => ?_⟩
  have hsplit : ∀ path ∈ t.nodes, Text.dotted (inDots path) = path := by
    intro path hpath
    obtain ⟨hne, hhas⟩ := (mem_nodes_iff h).1 hpath
    exact dotted_inDots hne (hplain path hhas)
  have hback : t.paths.map Text.dotted = t.nodes := by
    rw [paths_eq_map_nodes, List.map_map]
    exact (List.map_congr_left hsplit).trans (List.map_id _)
  refine ⟨fun path hhas => inDots_eq_intercalate (hplain path hhas), ?_, fun listed hperm => ?_⟩
  · have hnodes : t.nodes.Nodup := by
      refine (pairwise_nodes h).imp fun {path other} hlt => ?_
      rintro rfl
      exact List.lt_irrefl path hlt
    rw [← hback] at hnodes
    exact List.Nodup.of_map _ hnodes
  · refine foldl_insertPath_nodes h fun path => ?_
    rw [(hperm.map Text.dotted).mem_iff, hback]

/-- Posts with their author, the author with other posts, and tags. -/
def postTree : JoinTree :=
  node [("author", node [("posts", node [("tags", empty)])]), ("tags", empty)]

/-- Its four paths, listed backwards, make it again. -/
theorem paths_list_nodes_posts : postTree.Ordered ∧ postTree.Plain ∧
    postTree.paths = ["author", "author.posts", "author.posts.tags", "tags"] ∧
    postTree.paths.Nodup ∧
    ([["tags"], ["author", "posts", "tags"], ["author", "posts"], ["author"]].foldl insertPath
      empty) = postTree := by
  have hordered : postTree.Ordered := by
    refine ⟨?_, ?_, ordered_empty, trivial⟩
    · unfold Dict.Sorted
      decide
    · exact ordered_branch (ordered_branch ordered_empty _) _
  have hplain : postTree.Plain := (plain_iff hordered).2 (by decide)
  obtain ⟨-, hlisted⟩ := paths_list_nodes hordered
  obtain ⟨-, hnodup, hagain⟩ := hlisted hplain
  exact ⟨hordered, hplain, rfl, hnodup, hagain postTree.paths.reverse (List.reverse_perm _)⟩

/-- Without plain names two nodes may have one text. -/
example : (node [("", node [("a", empty)]), ("a", empty)]).paths = ["", "a", "a"] := rfl

end EntityQuery.JoinTree
