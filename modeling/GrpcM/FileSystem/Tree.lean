import GrpcM.FileSystem.Listing

/-!
A file tree as a graph of nodes, and two ways through it. Looking a path up
follows every link; a recursive iteration lists a link to a directory and does
not go into it. So what is listed is what is found without passing a link on the way
(`lists_iff_walk`).
-/

namespace GrpcM.FileSystem

open GrpcM.Path

/-- What a name in a directory stands for: a node, or a symbolic link and the node it
leads to, if there is one. -/
inductive Target (Node : Type)
  | node (i : Node)
  | link (target : Option Node)
  deriving DecidableEq

variable {Node : Type}

def Target.follow : Target Node → Option Node
  | .node i => some i
  | .link target => target

def child (children : Node → List (Text × Target Node)) (i : Node) (n : Text) : Option Node :=
  ((children i).lookup n).bind Target.follow

/-- Looking names up one after the other. -/
def walkFrom (children : Node → List (Text × Target Node)) : Node → List Text → Option Node
  | i, [] => some i
  | i, n :: ns => (child children i n).bind fun j => walkFrom children j ns

theorem walkFrom_append (children : Node → List (Text × Target Node)) (i : Node)
    (ns ms : List Text) :
    walkFrom children i (ns ++ ms) =
      (walkFrom children i ns).bind fun j => walkFrom children j ms := by
  induction ns generalizing i with
  | nil => rfl
  | cons n ns ih => simp only [List.cons_append, walkFrom, ih, Option.bind_assoc]

structure FileTree (Node : Type) where
  fileType : Node → FileType
  children : Node → List (Text × Target Node)
  proper : ∀ i, ∀ c ∈ children i, IsProperName c.1
  nodup : ∀ i, ((children i).map (·.1)).Nodup
  leaf : ∀ i, fileType i ≠ .directory → children i = []
  /-- The node a place leads to. -/
  nodeAt : Location → Option Node
  nodeAt_concat : ∀ a ns n, IsProperName n →
    nodeAt ⟨a, ns ++ [n]⟩ = (nodeAt ⟨a, ns⟩).bind fun i => child children i n

/-- The tree below a root directory, in which absolute places are looked up. -/
def FileTree.rooted (fileType : Node → FileType) (children : Node → List (Text × Target Node))
    (proper : ∀ i, ∀ c ∈ children i, IsProperName c.1)
    (nodup : ∀ i, ((children i).map (·.1)).Nodup)
    (leaf : ∀ i, fileType i ≠ .directory → children i = []) (root : Node) : FileTree Node where
  fileType := fileType
  children := children
  proper := proper
  nodup := nodup
  leaf := leaf
  nodeAt l := if l.absolute then walkFrom children root l.names else none
  nodeAt_concat := by
    intro a ns n _
    cases a with
    | false => rfl
    | true =>
        simp only [if_true, walkFrom_append]
        refine Option.bind_congr fun j _ => ?_
        simp [walkFrom]

namespace FileTree

variable {T : FileTree Node}

def walk (T : FileTree Node) : Node → List Text → Option Node := walkFrom T.children

/-- The type of the file a name stands for, links followed. -/
def status (T : FileTree Node) (t : Target Node) : Option FileType := t.follow.map T.fileType

/-- An iteration that starts in a directory lists these names for this target. -/
inductive Lists (T : FileTree Node) : Node → List Text → Target Node → Prop
  | here {i n t} (h : (n, t) ∈ T.children i) : Lists T i [n] t
  | inside {i n j ns t} (h : (n, .node j) ∈ T.children i) (hrest : Lists T j ns t) :
      Lists T i (n :: ns) t

/-- The names pass through a symbolic link before the last one. -/
inductive Crosses (T : FileTree Node) : Node → List Text → Prop
  | link {i n target ns} (h : (n, .link target) ∈ T.children i) (hne : ns ≠ []) :
      Crosses T i (n :: ns)
  | inside {i n j ns} (h : (n, .node j) ∈ T.children i) (hrest : Crosses T j ns) :
      Crosses T i (n :: ns)

theorem Lists.ne_nil {i : Node} {ns : List Text} {t : Target Node} (hl : T.Lists i ns t) :
    ns ≠ [] := by
  cases hl <;> simp

theorem Lists.proper {i : Node} {ns : List Text} {t : Target Node} (hl : T.Lists i ns t) :
    ∀ n ∈ ns, IsProperName n := by
  induction hl with
  | here h => simpa using T.proper _ _ h
  | inside h _ ih =>
      intro m hm
      rcases List.mem_cons.mp hm with rfl | hm
      · exact T.proper _ _ h
      · exact ih m hm

theorem lookup_eq_some_iff {i : Node} {n : Text} {t : Target Node} :
    (T.children i).lookup n = some t ↔ (n, t) ∈ T.children i := by
  have hnodup := T.nodup i
  generalize T.children i = cs at hnodup ⊢
  induction cs with
  | nil => simp
  | cons c cs ih =>
      obtain ⟨m, u⟩ := c
      obtain ⟨hnot, hrest⟩ := List.nodup_cons.mp hnodup
      rw [List.lookup_cons]
      by_cases hnm : n = m
      · subst hnm
        have hout : (n, t) ∉ cs := fun hmem => hnot (List.mem_map.mpr ⟨_, hmem, rfl⟩)
        simp [hout, eq_comm]
      · rw [beq_eq_false_iff_ne.mpr hnm]
        exact (ih hrest).trans (by simp [hnm])

theorem Lists.walk {i : Node} {ns : List Text} {t : Target Node} (hl : T.Lists i ns t) :
    T.walk i ns = t.follow := by
  induction hl with
  | here h => simp [FileTree.walk, walkFrom, child, lookup_eq_some_iff.mpr h]
  | inside h _ ih =>
      simpa [FileTree.walk, walkFrom, child, lookup_eq_some_iff.mpr h, Target.follow] using ih

theorem Lists.not_crosses {i : Node} {ns : List Text} {t : Target Node} (hl : T.Lists i ns t) :
    ¬T.Crosses i ns := by
  induction hl with
  | here =>
      rintro (⟨-, hne⟩ | ⟨-, hrest⟩)
      · exact hne rfl
      · cases hrest
  | inside h _ ih =>
      have hnode := lookup_eq_some_iff.mpr h
      rintro (⟨hlink, -⟩ | ⟨hnode', hrest⟩)
      · cases hnode.symm.trans (lookup_eq_some_iff.mpr hlink)
      · cases hnode.symm.trans (lookup_eq_some_iff.mpr hnode')
        exact ih hrest

/-- What is found is listed, unless a link is passed on the way. -/
theorem lists_or_crosses {i j : Node} {ns : List Text} (hne : ns ≠ [])
    (hwalk : T.walk i ns = some j) :
    (∃ t, T.Lists i ns t ∧ t.follow = some j) ∨ T.Crosses i ns := by
  induction ns generalizing i with
  | nil => exact absurd rfl hne
  | cons n ns ih =>
      rw [FileTree.walk, walkFrom, child] at hwalk
      cases hlookup : (T.children i).lookup n with
      | none => simp [hlookup] at hwalk
      | some t =>
          have hmem : (n, t) ∈ T.children i := lookup_eq_some_iff.mp hlookup
          rw [hlookup] at hwalk
          by_cases hns : ns = []
          · subst hns
            refine .inl ⟨t, .here hmem, ?_⟩
            simpa [walkFrom] using hwalk
          · -- names are left, so a link here is one on the way
            cases t with
            | link target => exact .inr (.link hmem hns)
            | node k =>
                rcases ih hns (i := k) (by simpa [FileTree.walk, Target.follow] using hwalk) with
                  ⟨t, hl, hfollow⟩ | hcross
                · exact .inl ⟨t, .inside hmem hl, hfollow⟩
                · exact .inr (.inside hmem hcross)

theorem lists_iff_walk {i j : Node} {ns : List Text} (hne : ns ≠ []) :
    (∃ t, T.Lists i ns t ∧ t.follow = some j) ↔ T.walk i ns = some j ∧ ¬T.Crosses i ns := by
  constructor
  · rintro ⟨t, hlists, hfollow⟩
    exact ⟨hlists.walk.trans hfollow, hlists.not_crosses⟩
  · rintro ⟨hwalk, hcross⟩
    exact (lists_or_crosses hne hwalk).resolve_right hcross

theorem nodeAt_append (a : Bool) (ns : List Text) {ms : List Text}
    (hms : ∀ m ∈ ms, IsProperName m) :
    T.nodeAt ⟨a, ns ++ ms⟩ = (T.nodeAt ⟨a, ns⟩).bind fun i => T.walk i ms := by
  induction ms using List.reverseRecOn with
  | nil => simp [FileTree.walk, walkFrom]
  | append_singleton ms m ih =>
      have hm : IsProperName m := hms m (by simp)
      have hrest := ih fun k hk => hms k (by simp [hk])
      rw [← List.append_assoc, T.nodeAt_concat a _ m hm, hrest, Option.bind_assoc]
      refine Option.bind_congr fun i _ => ?_
      rw [FileTree.walk, walkFrom_append]
      refine Option.bind_congr fun k _ => ?_
      simp [walkFrom]

end FileTree

end GrpcM.FileSystem
