import Mathlib.Data.List.TakeDrop
import Mathlib.Data.List.TakeWhile
import TopicPublisher.Config.Layers
import TopicPublisher.Proofs.Text.LowerCase

/-!
# Laying layers

What it does to a root to put a value under a key of a layer. It changes the one entry that the head of the
key's path names when it is lower-cased (`entryOf`), and nothing else, whatever the other steps are. Only a
key that begins with the name of an entry, in some mixture of cases, leads to it.

Results:
1. `exists_assign`, `get?_assign_of_ne`, `get?_assignAll_of_ne`: the entry that is changed, and the others.
2. `get?_assign_entry`: a value that is put under one step.
3. `head_begins`, `prefix_of_entryOf_eq`: what keys begin with.
-/

namespace TopicPublisher

/-! ## Definitions -/

/-- The entry of the root that what is under a key of a layer is put into. -/
def entryOf (key : String) : String := Text.lower (Path.ofText key).head

/-! ## 1. Entries of the root -/

namespace Setting

variable {key k : String} {x root : Setting}

theorem get?_eq_find? (s : Setting) (k : String) : s.get? k = Entries.find? k (asTable s).2 := by
  cases s <;> rfl

theorem exists_lay (key : String) (x root : Setting) : ∃ y, lay key x root =
    .table (asTable root).1 (Entries.put (Text.lower key) y (asTable root).2) := by
  cases x <;> exact ⟨_, by rw [lay]⟩

theorem exists_assign (p : Path) (x root : Setting) : ∃ y, assign p x root =
    .table (asTable root).1 (Entries.put (Text.lower p.head) y (asTable root).2) := by
  unfold assign
  split
  · exact exists_lay p.head x root
  · exact ⟨_, rfl⟩

theorem get?_assign_of_ne {p : Path} (h : Text.lower p.head ≠ k) (x root : Setting) :
    (assign p x root).get? k = root.get? k := by
  obtain ⟨y, hy⟩ := exists_assign p x root
  rw [hy, get?_eq_find? root]
  exact Entries.find?_put_of_ne h _ _

theorem assignAll_cons (e : String × Setting) (rest : List (String × Setting)) (root : Setting) :
    assignAll (e :: rest) root = assignAll rest (assign (Path.ofText e.1) e.2 root) := rfl

theorem assignAll_append (es es' : List (String × Setting)) (root : Setting) :
    assignAll (es ++ es') root = assignAll es' (assignAll es root) := List.foldl_append

/-- An entry that no key leads to stays as it is. -/
theorem get?_assignAll_of_ne {es : List (String × Setting)} (h : ∀ e ∈ es, entryOf e.1 ≠ k)
    (root : Setting) : (assignAll es root).get? k = root.get? k := by
  induction es generalizing root with
  | nil => rfl
  | cons e rest ih =>
    obtain ⟨he, hrest⟩ := List.forall_mem_cons.1 h
    rw [assignAll_cons, ih hrest]
    exact get?_assign_of_ne he _ _

/-! ## 2. One step -/

/-- Whatever was there before, a value without parts that is put under one step is there afterwards. -/
theorem get?_assign_entry {group : String} (hgroup : Text.lower group = group)
    (hkey : Text.lower key = key) (o : Option String) (x : Scalar) (root : Setting) :
    ∃ g, (assign ⟨group, [.entry key]⟩ (.scalar o x) root).get? group = some g ∧
      g.get? key = some (.scalar o x) := by
  have hassign : assign ⟨group, [.entry key]⟩ (.scalar o x) root =
      .table (asTable root).1 (Entries.put (Text.lower group)
        (lay key (.scalar o x) ((Entries.find? (Text.lower group) (asTable root).2).getD empty))
        (asTable root).2) := rfl
  rw [hassign, hgroup]
  refine ⟨_, Entries.find?_put_self _ _ _, ?_⟩
  rw [lay, hkey]
  exact Entries.find?_put_self _ _ _

end Setting

/-! ## 3. What keys begin with -/

theorem head_begins (t : String) : (Path.ofText t).head.toList <+: t.toList := by
  unfold Path.ofText
  cases hp : Path.parse? t with
  | none => exact List.prefix_refl _
  | some p =>
    simp only [Path.parse?, Option.bind_eq_bind, Option.bind_eq_some_iff] at hp
    obtain ⟨⟨head, rest⟩, hkey, steps, -, hp⟩ := hp
    cases hp
    unfold Path.key? at hkey
    split at hkey
    · cases hkey
    · next key rest' _ hspan =>
      cases hkey
      rw [List.span_eq_takeWhile_dropWhile] at hspan
      obtain ⟨rfl, -⟩ := Prod.mk.inj hspan
      rw [Option.getD_some, String.toList_ofList]
      exact List.takeWhile_prefix _

/-- A key that leads to an entry begins with its name, in some mixture of cases. -/
theorem prefix_of_entryOf_eq {s t : String} (hs : Text.Plain s.toList) (h : entryOf t = s) :
    s.toList <+: t.toList.map Char.toLower := by
  refine List.IsPrefix.trans ?_ ((head_begins t).map _)
  refine Text.prefix_of_prefix_lower hs ?_
  rw [← h]
  exact List.prefix_refl _

end TopicPublisher
