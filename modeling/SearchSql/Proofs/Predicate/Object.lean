import Mathlib.Algebra.BigOperators.Group.List.Basic
import Mathlib.Algebra.GroupWithZero.Nat
import Mathlib.Data.List.Forall2
import SearchSql.Predicate.Object
import SearchSql.Proofs.Predicate.NormalForm

/-!
# Simplification of objects

However the objects of a predicate are shared, the loop over them finishes every child before its
node and has the outcome of the recursion on the tree. It drops the nodes that have to go and no
others, and where there is none of them it gives back the very object (`simplify_objects`). So it does
to a predicate what simplification without objects does (`simplify_ofPredicate`).
-/

namespace SearchSql

namespace Predicate

variable {α : Type}

/-! ## Counting -/

/-- A `must` or `should` with one child. -/
def isSingle : Predicate α → Bool
  | .boolean kind _ rest => kind != .mustNot && rest.isEmpty
  | _ => false

theorem singles_all_eq_sum (ps : List (Predicate α)) : singlesAll ps = (ps.map singles).sum := by
  induction ps with
  | nil => rfl
  | cons p ps ih => rw [singlesAll, ih, List.map_cons, List.sum_cons]

theorem singles_eq (p : Predicate α) :
    p.singles = (p.children.map singles).sum + if p.isSingle then 1 else 0 := by
  rw [Nat.add_comm]
  cases p with
  | boolean kind first rest => simp [singles, isSingle, children, singles_all_eq_sum]
  | boost query factor => simp [singles, isSingle, children]
  | _ => rfl

theorem singles_eq_zero_iff_children {p : Predicate α} :
    p.singles = 0 ↔ p.isSingle = false ∧ ∀ q ∈ p.children, q.singles = 0 := by
  rw [singles_eq, Nat.add_eq_zero_iff, List.sum_eq_zero_iff_forall_eq_nat, List.forall_mem_map,
    and_comm]
  simp

/-- They are counted as often as they stand in the predicate. -/
theorem singles_eq_countP (p : Predicate α) : p.singles = p.nodes.countP isSingle := by
  induction p using children_induction with
  | node p ih =>
    rw [singles_eq, nodes_eq_cons, List.countP_cons, List.countP_flatMap,
      List.map_congr_left ih]
    rfl

theorem singles_eq_zero_iff {p : Predicate α} : p.singles = 0 ↔ p.IsNormal := by
  rw [singles_eq_countP, List.countP_eq_zero]
  constructor
  · intro none kind first rest occurs combining
    have more := none _ (mem_nodes_iff.mpr occurs)
    cases rest with
    | nil => simp [isSingle, combining] at more
    | cons next rest => simp
  · intro normal q hq single
    cases q with
    | boolean kind first rest =>
      simp only [isSingle, Bool.and_eq_true, bne_iff_ne, List.isEmpty_iff] at single
      obtain ⟨combining, rfl⟩ := single
      exact absurd (normal kind first [] (mem_nodes_iff.mp hq) combining) (by simp)
    | _ => cases single

theorem singles_collapse (p : Predicate α) : (collapse p).singles = 0 :=
  singles_eq_zero_iff.mpr (isNormal_collapse p)

theorem length_nodes_eq (p : Predicate α) :
    p.nodes.length = (p.children.map fun q => q.nodes.length).sum + 1 := by
  rw [nodes_eq_cons, List.length_cons, List.length_flatMap]

/-- With other children in place of its own a node is dropped, if it is a single one, or has those
children. -/
theorem rebuild_cases {p : Predicate α} {qs : List (Predicate α)}
    (same : qs.length = p.children.length) :
    p.isSingle = true ∧ qs = [rebuild p qs] ∨
      p.isSingle = false ∧ (rebuild p qs).children = qs := by
  cases p with
  | boolean kind first rest =>
    match qs, rest, same with
    | [child], [], _ => cases kind <;> simp [isSingle, rebuild, children]
    | child :: next :: more, _ :: _, _ => cases kind <;> simp [isSingle, rebuild, children]
  | boost query factor =>
    obtain ⟨child, rfl⟩ := List.length_eq_one_iff.mp same
    exact Or.inr ⟨rfl, rfl⟩
  | _ =>
    cases List.length_eq_zero_iff.mp same
    exact Or.inr ⟨rfl, rfl⟩

theorem rebuild_boolean (kind : Kind) (first : Predicate α) (rest : List (Predicate α))
    (child : Predicate α) (more : List (Predicate α)) :
    rebuild (.boolean kind first rest) (child :: more) =
      if more.isEmpty && kind != .mustNot then child else .boolean kind child more := by
  cases more <;> cases kind <;> rfl

theorem length_nodes_collapse (p : Predicate α) :
    (collapse p).nodes.length + p.singles = p.nodes.length := by
  induction p using children_induction with
  | node p ih =>
    have below : ((p.children.map collapse).map fun q => q.nodes.length).sum +
        (p.children.map singles).sum = (p.children.map fun q => q.nodes.length).sum := by
      rw [List.map_map, ← List.sum_map_add]
      exact congrArg List.sum (List.map_congr_left ih)
    rw [singles_eq, length_nodes_eq p, ← below, collapse_eq_rebuild]
    have same : (p.children.map collapse).length = p.children.length := List.length_map collapse
    rcases rebuild_cases same with ⟨single, alone⟩ | ⟨other, kept⟩
    · rw [if_pos single]
      generalize rebuild p (p.children.map collapse) = q at alone ⊢
      rw [alone, List.map_singleton, List.sum_singleton]
      omega
    · rw [length_nodes_eq, kept, other]
      simp only [Bool.false_eq_true, if_false]
      omega

end Predicate

namespace Object

variable {α : Type} {root : Object α} {next : ℕ}

@[elab_as_elim]
theorem object_induction {motive : Object α → Prop}
    (node : ∀ o, (∀ c ∈ o.children, motive c) → motive o) : ∀ o, motive o := by
  intro o
  refine @Object.rec α motive (fun os => ∀ o ∈ os, motive o) ?_ ?_ ?_ ?_ ?_ o
  · intro id predicate alone
    exact node _ (List.forall_mem_nil _)
  · intro id kind first rest hfirst hrest
    exact node _ (List.forall_mem_cons.mpr ⟨hfirst, hrest⟩)
  · intro id query factor hquery
    exact node _ (List.forall_mem_singleton.mpr hquery)
  · exact List.forall_mem_nil _
  · intro o os ho hos
    exact List.forall_mem_cons.mpr ⟨ho, hos⟩

theorem trees_eq_map (os : List (Object α)) : trees os = os.map tree := by
  induction os with
  | nil => rfl
  | cons o os ih => rw [trees, ih, List.map_cons]

theorem children_tree (o : Object α) : o.tree.children = o.children.map tree := by
  cases o with
  | leaf id predicate alone => exact alone
  | boolean id kind first rest => simp [tree, Predicate.children, children, trees_eq_map]
  | boost id query factor => rfl

/-! ## Identity -/

/-- An object stands in another: at any depth, in any place. -/
inductive Occurs (a : Object α) : Object α → Prop where
  | here : Occurs a a
  | inside {c o : Object α} (child : c ∈ o.children) (h : Occurs a c) : Occurs a o

theorem occurs_iff {a o : Object α} : a.Occurs o ↔ a = o ∨ ∃ c ∈ o.children, a.Occurs c := by
  constructor
  · intro h
    cases h with
    | here => exact Or.inl rfl
    | inside child h => exact Or.inr ⟨_, child, h⟩
  · rintro (rfl | ⟨c, child, h⟩)
    · exact .here
    · exact .inside child h

theorem Occurs.child {o c : Object α} (child : c ∈ o.children) : c.Occurs o := .inside child .here

theorem Occurs.trans {a b c : Object α} (hab : a.Occurs b) (hbc : b.Occurs c) : a.Occurs c := by
  induction hbc with
  | here => exact hab
  | inside child _ ih => exact .inside child ih

/-- What has the same identity in the object is the same object. -/
def Consistent (o : Object α) : Prop :=
  ∀ a b : Object α, a.Occurs o → b.Occurs o → a.id = b.id → a = b

/-- All identities in the object have been given out. -/
def Below (next : ℕ) (o : Object α) : Prop := ∀ a : Object α, a.Occurs o → a.id < next

/-! ## Making nodes anew -/

theorem sameObjects_self (os : List (Object α)) : sameObjects os os = true := by
  induction os with
  | nil => rfl
  | cons o os ih => simpa [sameObjects] using ih

theorem eq_of_sameObjects {os os' : List (Object α)} (length : os.length = os'.length)
    (identified : ∀ a ∈ os, ∀ b ∈ os', a.id = b.id → a = b) (same : sameObjects os os' = true) :
    os = os' := by
  refine List.forall₂_eq_eq_eq ▸ List.forall₂_iff_zip.mpr ⟨length, ?_⟩
  intro a b h
  have ids := List.all_eq_true.mp same (a, b) h
  exact identified a (List.of_mem_zip h).1 b (List.of_mem_zip h).2 (of_decide_eq_true ids)

/-- A node is kept, or a child takes its place, or it is made anew. -/
theorem rebuild_cases (node : Object α) (children : List (Object α)) (next : ℕ) :
    node.rebuild children next = (node, next) ∨
      (∃ child ∈ children, node.rebuild children next = (child, next)) ∨
      ∃ object : Object α, node.rebuild children next = (object, next + 1) ∧ object.id = next ∧
        ∀ c ∈ object.children, c ∈ children := by
  cases node with
  | leaf id predicate alone => exact Or.inl rfl
  | boolean id kind first rest =>
    cases children with
    | nil => exact Or.inl rfl
    | cons child more =>
      rw [rebuild]
      split
      · exact Or.inr (Or.inl ⟨child, List.mem_cons_self, rfl⟩)
      · split
        · exact Or.inl rfl
        · exact Or.inr (Or.inr ⟨_, rfl, rfl, fun c hc => hc⟩)
  | boost id query factor =>
    cases children with
    | nil => exact Or.inl rfl
    | cons child more =>
      rw [rebuild]
      split
      · exact Or.inl rfl
      · refine Or.inr (Or.inr ⟨_, rfl, rfl, fun c hc => ?_⟩)
        cases List.mem_singleton.mp hc
        exact List.mem_cons_self

/-- What is made of a node stands for its predicate with the children replaced. Where the children
are the same objects, they are equal, so that the node can be kept. -/
theorem tree_rebuild {node : Object α} {children : List (Object α)}
    (length : children.length = node.children.length)
    (identified : ∀ a ∈ children, ∀ b ∈ node.children, a.id = b.id → a = b) (next : ℕ) :
    (node.rebuild children next).1.tree = node.tree.rebuild (children.map tree) := by
  cases node with
  | leaf id predicate alone =>
    cases List.length_eq_zero_iff.mp length
    cases predicate <;> first | rfl | cases alone
  | boolean id kind first rest =>
    obtain ⟨child, more, rfl⟩ := List.exists_cons_of_length_eq_add_one length
    rw [rebuild, List.map_cons, tree, Predicate.rebuild_boolean, List.isEmpty_map]
    split
    · rfl
    · split
      · next same =>
        cases eq_of_sameObjects length identified same
        rw [tree, trees_eq_map]
      · rw [tree, trees_eq_map]
  | boost id query factor =>
    obtain ⟨child, rfl⟩ := List.length_eq_one_iff.mp length
    rw [rebuild]
    split
    · next same =>
      cases identified child List.mem_cons_self query List.mem_cons_self same
      rfl
    · rfl

theorem rebuild_self {node : Object α} (other : node.tree.isSingle = false) (next : ℕ) :
    node.rebuild node.children next = (node, next) := by
  cases node with
  | leaf id predicate alone => rfl
  | boolean id kind first rest =>
    have several : (rest.isEmpty && kind != .mustNot) = false := by
      rw [tree, Predicate.isSingle, trees_eq_map, List.isEmpty_map, Bool.and_comm] at other
      exact other
    rw [children, rebuild, several, sameObjects_self]
    rfl
  | boost id query factor => simp [rebuild, children]

/-! ## The loop -/

variable {m : Memory α}

/-- The objects that the loop has to do with: those in the root and those in finished objects. -/
def Memory.Knows (root : Object α) (m : Memory α) (a : Object α) : Prop :=
  a.Occurs root ∨ ∃ id o, m.done.get? id = some o ∧ a.Occurs o

/-- What holds whenever an object is taken from the stack. What is finished is the simplified object,
or the very object, if nothing in it has to go. -/
structure Memory.Sound (root : Object α) (m : Memory α) : Prop where
  identified : ∀ a b : Object α, m.Knows root a → m.Knows root b → a.id = b.id → a = b
  below : ∀ a : Object α, m.Knows root a → a.id < m.next
  simplified : ∀ a o : Object α, a.Occurs root → m.done.get? a.id = some o →
    o.tree = a.tree.collapse ∧ (a.tree.singles = 0 → o = a)

/-- The children of a node are finished, and these are the outcomes. -/
def Memory.Finished (m : Memory α) (node : Object α) (children : List (Object α)) : Prop :=
  List.Forall₂ (fun c o => m.done.get? c.id = some o) node.children children

variable {node : Object α} {children : List (Object α)}

theorem Memory.Finished.knows (h : m.Finished node children) {a c : Object α}
    (hc : c ∈ children) (ha : a.Occurs c) : m.Knows root a := by
  obtain ⟨i, hi, rfl⟩ := List.getElem_of_mem hc
  have found := List.Forall₂.get h (h.length_eq ▸ hi) hi
  exact Or.inr ⟨_, _, found, ha⟩

theorem Memory.get_finish (m : Memory α) (node : Object α) (children : List (Object α)) (id : ℕ) :
    (m.finish node children).done.get? id =
      if node.id = id then some (node.rebuild children m.next).1 else m.done.get? id :=
  Table.get?_put node.id _ m.done id

/-- Finishing a node makes one new object at most. -/
theorem Memory.Finished.knows_finish (h : m.Finished node children) (hnode : node.Occurs root)
    {a : Object α} (ha : (m.finish node children).Knows root a) :
    m.Knows root a ∨ a.id = m.next ∧ a = (node.rebuild children m.next).1 ∧
      (m.finish node children).next = m.next + 1 := by
  obtain inRoot | ⟨id, o, found, ha⟩ := ha
  · exact Or.inl (Or.inl inRoot)
  rw [get_finish] at found
  split at found
  · cases found
    rcases rebuild_cases node children m.next with kept | ⟨c, hc, taken⟩ | ⟨new, made, hid, below⟩
    · rw [kept] at ha
      exact Or.inl (Or.inl (ha.trans hnode))
    · rw [taken] at ha
      exact Or.inl (h.knows hc ha)
    · rw [made] at ha ⊢
      cases ha with
      | here => exact Or.inr ⟨hid, rfl, congrArg Prod.snd made⟩
      | inside child ha => exact Or.inl (h.knows (below _ child) ha)
  · exact Or.inl (Or.inr ⟨id, o, found, ha⟩)

theorem Memory.next_le_finish (m : Memory α) (node : Object α) (children : List (Object α)) :
    m.next ≤ (m.finish node children).next := by
  show m.next ≤ (node.rebuild children m.next).2
  rcases rebuild_cases node children m.next with kept | ⟨c, -, taken⟩ | ⟨new, made, -⟩
  · exact Nat.le_of_eq (congrArg Prod.snd kept).symm
  · exact Nat.le_of_eq (congrArg Prod.snd taken).symm
  · rw [made]
    exact Nat.le_succ _

/-- What is made of the node is what the recursion says. -/
theorem Memory.Sound.rebuild (sound : m.Sound root) (hnode : node.Occurs root)
    (h : m.Finished node children) :
    (node.rebuild children m.next).1.tree = node.tree.collapse ∧
      (node.tree.singles = 0 → (node.rebuild children m.next).1 = node) := by
  have below : ∀ c ∈ node.children, c.Occurs root := fun c hc => (Occurs.child hc).trans hnode
  have outcomes : List.Forall₂ (fun c o => o.tree = c.tree.collapse ∧ (c.tree.singles = 0 → o = c))
      node.children children :=
    ((List.forall₂_and_left _ _).mpr ⟨below, h⟩).imp fun c o hc => sound.simplified c o hc.1 hc.2
  have trees : children.map tree = node.tree.children.map Predicate.collapse := by
    rw [children_tree, List.map_map]
    refine List.forall₂_eq_eq_eq ▸ List.forall₂_map_left_iff.mpr ?_
    exact List.forall₂_map_right_iff.mpr (outcomes.flip.imp fun o c hc => hc.1)
  constructor
  · rw [tree_rebuild h.length_eq.symm ?_, trees, ← Predicate.collapse_eq_rebuild]
    intro a ha b hb same
    exact sound.identified a b (h.knows ha .here) (Or.inl (below b hb)) same
  · intro none
    obtain ⟨several, none⟩ := Predicate.singles_eq_zero_iff_children.mp none
    rw [children_tree, List.forall_mem_map] at none
    have same : children = node.children := by
      refine List.forall₂_eq_eq_eq ▸ ?_
      refine (((List.forall₂_and_left _ _).mpr ⟨none, outcomes⟩).imp ?_).flip
      intro c o hc
      exact hc.2.2 hc.1
    rw [same, rebuild_self several]

theorem Memory.Sound.finish (sound : m.Sound root) (hnode : node.Occurs root)
    (h : m.Finished node children) : (m.finish node children).Sound root where
  identified a b ha hb same := by
    rcases h.knows_finish hnode ha with ha | ⟨newA, rfl, -⟩
    · rcases h.knows_finish hnode hb with hb | ⟨newB, rfl, -⟩
      · exact sound.identified a b ha hb same
      · exact absurd (same.trans newB) (Nat.ne_of_lt (sound.below a ha))
    · rcases h.knows_finish hnode hb with hb | ⟨newB, rfl, -⟩
      · exact absurd (same.symm.trans newA) (Nat.ne_of_lt (sound.below b hb))
      · rfl
  below a ha := by
    rcases h.knows_finish hnode ha with ha | ⟨new, -, next⟩
    · exact Nat.lt_of_lt_of_le (sound.below a ha) (next_le_finish m node children)
    · omega
  simplified a o ha found := by
    rw [get_finish] at found
    split at found
    · next same =>
      cases sound.identified node a (Or.inl hnode) (Or.inl ha) same
      cases found
      exact sound.rebuild hnode h
    · exact sound.simplified a o ha found

/-- The top of a stack is worked off: what comes below it is taken from the stack when these objects,
and all that were finished before, are finished. -/
def Finishes (root : Object α) (top : List (Visit α)) (os : List (Object α)) : Prop :=
  ∀ (stack : List (Visit α)) (m : Memory α), m.Sound root →
    ∃ m' : Memory α, work (top ++ stack) m = work stack m' ∧ m'.Sound root ∧
      (∀ id, (m.done.get? id).isSome → (m'.done.get? id).isSome) ∧
      ∀ o ∈ os, (m'.done.get? o.id).isSome

theorem Finishes.append {top top' : List (Visit α)} {os os' : List (Object α)}
    (h : Finishes root top os) (h' : Finishes root top' os') :
    Finishes root (top ++ top') (os ++ os') := by
  intro stack m sound
  obtain ⟨m₁, worked, sound, kept, done⟩ := h (top' ++ stack) m sound
  obtain ⟨m₂, worked', sound, kept', done'⟩ := h' stack m₁ sound
  refine ⟨m₂, ?_, sound, fun id hid => kept' id (kept id hid), ?_⟩
  · rw [List.append_assoc, worked, worked']
  · exact List.forall_mem_append.mpr ⟨fun o ho => kept' o.id (done o ho), done'⟩

theorem finishes_visits {os : List (Object α)} (h : ∀ o ∈ os, Finishes root [(o, false)] [o]) :
    Finishes root (os.map (·, false)) os := by
  induction os with
  | nil => exact fun stack m sound => ⟨m, rfl, sound, fun _ hid => hid, List.forall_mem_nil _⟩
  | cons o os ih =>
    obtain ⟨ho, hos⟩ := List.forall_mem_cons.mp h
    exact ho.append (ih hos)

theorem Memory.exists_outcomes {os : List (Object α)} (h : ∀ o ∈ os, (m.done.get? o.id).isSome) :
    ∃ outcomes, List.Forall₂ (fun o outcome => m.done.get? o.id = some outcome) os outcomes ∧
      os.mapM (fun o => m.done.get? o.id) = some outcomes := by
  induction os with
  | nil => exact ⟨[], .nil, rfl⟩
  | cons o os ih =>
    obtain ⟨ho, hos⟩ := List.forall_mem_cons.mp h
    obtain ⟨outcome, found⟩ := Option.isSome_iff_exists.mp ho
    obtain ⟨outcomes, all, rest⟩ := ih hos
    refine ⟨outcome :: outcomes, .cons found all, ?_⟩
    rw [List.mapM_cons, found, rest]
    rfl

/-- A node whose children are finished is finished when it is taken from the stack. -/
theorem work_finish {expanded : Bool} (ready : node.children.isEmpty || expanded)
    (hnode : node.Occurs root) (sound : m.Sound root)
    (h : ∀ c ∈ node.children, (m.done.get? c.id).isSome) (stack : List (Visit α)) :
    ∃ m' : Memory α, work ((node, expanded) :: stack) m = work stack m' ∧ m'.Sound root ∧
      (∀ id, (m.done.get? id).isSome → (m'.done.get? id).isSome) ∧
      (m'.done.get? node.id).isSome := by
  obtain ⟨children, finished, found⟩ := Memory.exists_outcomes h
  refine ⟨m.finish node children, ?_, sound.finish hnode finished, ?_, ?_⟩
  · rw [work, if_pos ready, found]
    rfl
  · intro id hid
    rw [Memory.get_finish]
    split
    · rfl
    · exact hid
  · rw [Memory.get_finish, if_pos rfl]
    rfl

/-- An object on the stack gets finished. Its children are put above it, so they are finished before
it is taken again. -/
theorem finishes_visit (o : Object α) (ho : o.Occurs root) : Finishes root [(o, false)] [o] := by
  induction o using object_induction with
  | node o ih =>
    intro stack m sound
    rw [List.singleton_append]
    simp only [List.forall_mem_singleton]
    by_cases alone : o.children = []
    · refine work_finish ?_ ho sound ?_ stack
      · rw [alone]
        rfl
      · rw [alone]
        exact List.forall_mem_nil _
    · -- The children are worked off above the node, which waits as the rest of their stack.
      have below : ∀ c ∈ o.children.reverse, Finishes root [(c, false)] [c] := by
        intro c hc
        have child := List.mem_reverse.mp hc
        exact ih c child ((Occurs.child child).trans ho)
      obtain ⟨m₁, worked, sound, kept, done⟩ := finishes_visits below ((o, true) :: stack) m sound
      have ready : ∀ c ∈ o.children, (m₁.done.get? c.id).isSome := fun c hc =>
        done c (List.mem_reverse.mpr hc)
      obtain ⟨m₂, worked', sound, kept', done'⟩ :=
        work_finish (Bool.or_true _) ho sound ready stack
      refine ⟨m₂, ?_, sound, fun id hid => kept' id (kept id hid), done'⟩
      rw [work, if_neg (by simpa using alone), worked, worked']

theorem Consistent.sound (consistent : root.Consistent) (below : root.Below next) :
    Memory.Sound root ⟨[], next⟩ := by
  have known : ∀ a : Object α, Memory.Knows root ⟨[], next⟩ a → a.Occurs root := by
    rintro a (inRoot | ⟨id, o, found, -⟩)
    · exact inRoot
    · cases found
  exact ⟨fun a b ha hb => consistent a b (known a ha) (known b hb), fun a ha => below a (known a ha),
    fun a o _ found => nomatch found⟩

theorem exists_simplify (consistent : root.Consistent) (below : root.Below next) :
    ∃ object next', root.simplify next = some (object, next') ∧ object.Consistent ∧
      object.Below next' ∧ object.tree = root.tree.collapse ∧
      (root.tree.singles = 0 → object = root) ∧ (object.id = root.id → object = root) := by
  obtain ⟨m, worked, sound, -, done⟩ :=
    finishes_visit root .here [] ⟨[], next⟩ (consistent.sound below)
  obtain ⟨object, found⟩ := Option.isSome_iff_exists.mp (done root List.mem_cons_self)
  have known : ∀ a : Object α, a.Occurs object → m.Knows root a := fun a ha =>
    Or.inr ⟨root.id, object, found, ha⟩
  obtain ⟨tree, same⟩ := sound.simplified root object .here found
  refine ⟨object, m.next, ?_, ?_, fun a ha => sound.below a (known a ha), tree, same, ?_⟩
  · rw [simplify]
    rw [List.append_nil] at worked
    rw [worked, work]
    simp [found]
  · exact fun a b ha hb => sound.identified a b (known a ha) (known b hb)
  · exact fun id => sound.identified object root (known object .here) (Or.inl .here) id

/-- However the objects of a predicate are shared, the loop finds every child finished that it looks
up. What it makes stands for the predicate that the recursion on the tree makes, with as many nodes
less as there are nodes to be dropped. It is the very object if and only if there is none of them, and
it stays the very object when it is simplified again. -/
theorem simplify_objects (node : Object α) (next : ℕ) (consistent : node.Consistent)
    (below : node.Below next) :
    ∃ object next', node.simplify next = some (object, next') ∧
      object.tree = node.tree.collapse ∧
      object.tree.nodes.length + node.tree.singles = node.tree.nodes.length ∧
      (object.id = node.id ↔ node.tree.singles = 0) ∧ (object.id = node.id → object = node) ∧
      ∃ next'', object.simplify next' = some (object, next'') := by
  obtain ⟨object, next', simplified, consistent', below', tree, unchanged, same⟩ :=
    exists_simplify consistent below
  obtain ⟨again, next'', simplifiedAgain, -, -, -, unchangedAgain, -⟩ :=
    exists_simplify consistent' below'
  have fewer := node.tree.length_nodes_collapse
  rw [← tree] at fewer
  refine ⟨object, next', simplified, tree, fewer, ⟨?_, ?_⟩, same, next'', ?_⟩
  · intro id
    rw [same id] at fewer
    omega
  · intro none
    rw [unchanged none]
  · have none : object.tree.singles = 0 := by
      rw [tree]
      exact node.tree.singles_collapse
    rw [simplifiedAgain, unchangedAgain none]

/-- A conjunction of one. -/
def soleTerm : Object Value := .boolean 0 .must (.leaf 1 (.parse "a") rfl) []

/-- The same conjunction stands in two places. -/
def sharedChoice : Object Value := .boolean 2 .should soleTerm [.boolean 3 .mustNot soleTerm []]

theorem occurs_sharedChoice {a : Object Value} (h : a.Occurs sharedChoice) :
    a = sharedChoice ∨ a = soleTerm ∨ a = .leaf 1 (.parse "a") rfl ∨
      a = .boolean 3 .mustNot soleTerm [] := by
  have inSole : a.Occurs soleTerm → a = soleTerm ∨ a = .leaf 1 (.parse "a") rfl := by
    intro h
    obtain rfl | ⟨c, child, h⟩ := occurs_iff.mp h
    · exact Or.inl rfl
    · cases List.mem_singleton.mp child
      obtain rfl | ⟨c, child, -⟩ := occurs_iff.mp h
      · exact Or.inr rfl
      · cases child
  obtain rfl | ⟨c, child, h⟩ := occurs_iff.mp h
  · exact Or.inl rfl
  obtain rfl | child := List.mem_cons.mp child
  · grind
  · cases List.mem_singleton.mp child
    obtain rfl | ⟨c, child, h⟩ := occurs_iff.mp h
    · grind
    · cases List.mem_singleton.mp child
      grind

theorem simplify_objects_of_sharedChoice :
    sharedChoice.Consistent ∧ sharedChoice.Below 4 ∧
      ∃ object next', sharedChoice.simplify 4 = some (object, next') ∧
        object.tree = .boolean .should (.parse "a") [.boolean .mustNot (.parse "a") []] ∧
        object.tree.nodes.length + 2 = 6 ∧ object.id ≠ 2 ∧
        ∃ next'', object.simplify next' = some (object, next'') := by
  have consistent : sharedChoice.Consistent := by
    intro a b ha hb same
    rcases occurs_sharedChoice ha with rfl | rfl | rfl | rfl <;>
      rcases occurs_sharedChoice hb with rfl | rfl | rfl | rfl <;>
      first | rfl | cases same
  have below : sharedChoice.Below 4 := by
    intro a ha
    rcases occurs_sharedChoice ha with rfl | rfl | rfl | rfl <;> decide
  obtain ⟨object, next', simplified, tree, fewer, unchanged, -, again⟩ :=
    simplify_objects sharedChoice 4 consistent below
  refine ⟨consistent, below, object, next', simplified, tree, ?_, ?_, again⟩
  · have nodes : sharedChoice.tree.nodes.length = 6 := by
      rw [Predicate.nodes_eq_preorder]
      rfl
    rw [← nodes]
    exact fewer
  · intro same
    cases unchanged.mp same

/-! ## Predicates of objects of their own -/

/-- The identities in a row of objects are those from one number up to another. -/
structure Numbered (next : ℕ) (os : List (Object α)) (last : ℕ) : Prop where
  le : next ≤ last
  within : ∀ o ∈ os, ∀ a : Object α, a.Occurs o → next ≤ a.id ∧ a.id < last
  identified : ∀ o ∈ os, ∀ o' ∈ os, ∀ a b : Object α, a.Occurs o → b.Occurs o' → a.id = b.id →
    a = b

theorem numbered_nil (next : ℕ) : Numbered next ([] : List (Object α)) next :=
  ⟨Nat.le_refl next, nofun, nofun⟩

theorem Numbered.cons {o : Object α} {os : List (Object α)} {later last : ℕ}
    (ho : Numbered next [o] later) (hos : Numbered later os last) : Numbered next (o :: os) last := by
  have first := ho.within o List.mem_cons_self
  have apart : ∀ o' ∈ os, ∀ a b : Object α, a.Occurs o → b.Occurs o' → a.id < b.id :=
    fun o' ho' a b ha hb => Nat.lt_of_lt_of_le (first a ha).2 (hos.within o' ho' b hb).1
  refine ⟨Nat.le_trans ho.le hos.le, List.forall_mem_cons.mpr ⟨fun a ha => ?_, ?_⟩,
    List.forall_mem_cons.mpr ⟨List.forall_mem_cons.mpr ⟨?_, ?_⟩, ?_⟩⟩
  · exact ⟨(first a ha).1, Nat.lt_of_lt_of_le (first a ha).2 hos.le⟩
  · intro o' ho' a ha
    have behind := hos.within o' ho' a ha
    exact ⟨Nat.le_trans ho.le behind.1, behind.2⟩
  · exact ho.identified o List.mem_cons_self o List.mem_cons_self
  · intro o' ho' a b ha hb same
    exact absurd same (Nat.ne_of_lt (apart o' ho' a b ha hb))
  · intro o' ho'
    refine List.forall_mem_cons.mpr ⟨?_, hos.identified o' ho'⟩
    intro a b ha hb same
    exact absurd same.symm (Nat.ne_of_lt (apart o' ho' b a hb ha))

theorem Numbered.parent {o : Object α} {last : ℕ} (id : o.id = next)
    (h : Numbered (next + 1) o.children last) : Numbered next [o] last := by
  have below : ∀ c ∈ o.children, ∀ a : Object α, a.Occurs c → next < a.id := fun c hc a ha =>
    (h.within c hc a ha).1
  refine ⟨Nat.le_of_succ_le h.le, List.forall_mem_singleton.mpr fun a ha => ?_,
    List.forall_mem_singleton.mpr (List.forall_mem_singleton.mpr fun a b ha hb same => ?_)⟩
  · obtain rfl | ⟨c, hc, ha⟩ := occurs_iff.mp ha
    · exact ⟨Nat.le_of_eq id.symm, id.symm ▸ h.le⟩
    · exact ⟨Nat.le_of_lt (below c hc a ha), (h.within c hc a ha).2⟩
  · obtain hao | ⟨c, hc, ha⟩ := occurs_iff.mp ha
    · obtain hbo | ⟨c', hc', hb⟩ := occurs_iff.mp hb
      · exact hao.trans hbo.symm
      · rw [hao, id] at same
        exact absurd same (Nat.ne_of_lt (below c' hc' b hb))
    · obtain hbo | ⟨c', hc', hb⟩ := occurs_iff.mp hb
      · rw [hbo, id] at same
        exact absurd same.symm (Nat.ne_of_lt (below c hc a ha))
      · exact h.identified c hc c' hc' a b ha hb same

theorem numbered_leaf (p : Predicate α) (alone : p.children = []) (next : ℕ) :
    Numbered next [.leaf next p alone] (next + 1) := Numbered.parent rfl (numbered_nil _)

theorem numbered_ofPredicates {ps : List (Predicate α)}
    (h : ∀ p ∈ ps, ∀ next, Numbered next [(ofPredicate p next).1] (ofPredicate p next).2 ∧
      (ofPredicate p next).1.tree = p) (next : ℕ) :
    Numbered next (ofPredicates ps next).1 (ofPredicates ps next).2 ∧
      trees (ofPredicates ps next).1 = ps := by
  induction ps generalizing next with
  | nil => exact ⟨numbered_nil next, rfl⟩
  | cons p ps ih =>
    obtain ⟨hp, hps⟩ := List.forall_mem_cons.mp h
    obtain ⟨numbered, same⟩ := hp next
    obtain ⟨numbered', same'⟩ := ih hps (ofPredicate p next).2
    exact ⟨numbered.cons numbered', congrArg₂ List.cons same same'⟩

theorem numbered_ofPredicate (p : Predicate α) (next : ℕ) :
    Numbered next [(ofPredicate p next).1] (ofPredicate p next).2 ∧
      (ofPredicate p next).1.tree = p := by
  induction p using Predicate.tree_induction generalizing next with
  | leaf p alone =>
    cases p with
    | boolean => cases alone
    | boost => cases alone
    | _ => exact ⟨numbered_leaf _ _ next, rfl⟩
  | boolean kind first rest ih =>
    obtain ⟨numbered, same⟩ := numbered_ofPredicates ih (next + 1)
    obtain ⟨sameFirst, sameRest⟩ := List.cons.inj same
    exact ⟨Numbered.parent rfl numbered, congrArg₂ (Predicate.boolean kind) sameFirst sameRest⟩
  | boost query factor ih =>
    obtain ⟨numbered, same⟩ := ih (next + 1)
    exact ⟨Numbered.parent rfl numbered, congrArg (Predicate.boost · factor) same⟩

/-- With an object of its own for each of its nodes every predicate is simplified as it is without
objects. -/
theorem simplify_ofPredicate (p : Predicate α) (next : ℕ) :
    ∃ object next', (ofPredicate p next).1.simplify (ofPredicate p next).2 = some (object, next') ∧
      object.tree = p.simplify ∧ (object.id = (ofPredicate p next).1.id ↔ p.simplify = p) := by
  obtain ⟨numbered, same⟩ := numbered_ofPredicate p next
  have consistent : (ofPredicate p next).1.Consistent :=
    numbered.identified _ List.mem_cons_self _ List.mem_cons_self
  have below : (ofPredicate p next).1.Below (ofPredicate p next).2 := fun a ha =>
    (numbered.within _ List.mem_cons_self a ha).2
  obtain ⟨object, next', simplified, -, -, tree, unchanged, identical⟩ :=
    exists_simplify consistent below
  rw [same] at tree unchanged
  refine ⟨object, next', simplified, tree.trans p.simplify_eq_collapse.symm, ?_, ?_⟩
  · intro id
    rw [p.simplify_eq_collapse, ← tree, identical id, same]
  · intro stays
    have fewer := p.length_nodes_collapse
    rw [← p.simplify_eq_collapse, stays] at fewer
    rw [unchanged (by omega)]

end Object

end SearchSql
