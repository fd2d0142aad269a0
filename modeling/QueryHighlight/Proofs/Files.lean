import QueryHighlight.Command.FileTree

/-!
# Files are found by their names

A file tree is built by adding files and directories by their names, and looked
through by names.  This module says that the two agree, for relative names and for
those that start at the root.

* `node?_put_self`, `node?_put_of_ne` and the lemmas about `makeDirectory` say what one
  change does to a place and to all others.
* `lookFrom_addFrom` is the induction along the components of a path that goes down:
  every directory on the way is made, and the next one is looked for in it.
* `look_add` is its result.
* `look_ne_refused` says for which paths the system has an answer in any case, and
  `look_eq_refused` for which names it never has one.
-/

namespace QueryHighlight

theorem splitAtSlashes_of_not_mem {chars : List Char} (h : '/' ∉ chars) :
    splitAtSlashes chars = [chars] := by
  induction chars with
  | nil => rfl
  | cons c rest ih =>
    obtain ⟨hc, hrest⟩ := not_or.mp (mt List.mem_cons.mpr h)
    rw [splitAtSlashes, if_neg (Ne.symm hc), ih hrest]

/-- A name without slashes is a single component, unless it is none. -/
theorem Path.ofString_eq_singleton {name : String} (hslash : '/' ∉ name.toList)
    (hname : name ≠ "") (hhere : name ≠ here) : ofString name = ⟨0, [name]⟩ := by
  have hslashes : name.toList.takeWhile (· == '/') = [] := by
    cases hchars : name.toList with
    | nil => rfl
    | cons c rest =>
      rw [hchars] at hslash
      have hc : c ≠ '/' := fun heq => hslash (heq ▸ List.mem_cons_self)
      exact List.takeWhile_cons_of_neg (by simpa using hc)
  rw [ofString, splitAtSlashes_of_not_mem hslash, hslashes]
  simp [hname, hhere]

namespace Place

theorem enter_names {place : Place} {component : String} (h : component ≠ Path.up) :
    (place.enter component).names = place.names ++ [component] := by
  rw [enter, if_neg h]

theorem ne_enter {place : Place} {component : String} (h : component ≠ Path.up) :
    place ≠ place.enter component := by
  intro heq
  have hlength := congrArg (·.names.length) heq
  simp [enter_names h] at hlength

end Place

namespace FileTree

variable {tree : FileTree} {place : Place} {node : Node} {components : List String}

@[simp] theorem makeDirectory_workingDirectory :
    (tree.makeDirectory place).workingDirectory = tree.workingDirectory := by
  unfold makeDirectory
  split <;> rfl

@[simp] theorem addFrom_workingDirectory :
    (tree.addFrom place node components).workingDirectory = tree.workingDirectory := by
  fun_induction addFrom tree place node components with
  | case1 | case2 => rfl
  | case3 tree place component rest hrest next ih => rw [ih, makeDirectory_workingDirectory]

/-! ## Where paths start -/

/-- A path starts at a directory. -/
theorem origin_leadsTo (tree : FileTree) (path : Path) :
    (tree.origin path).leadsTo tree.workingDirectory = true := by
  unfold origin
  split
  · exact List.isPrefixOf_iff_prefix.mpr (List.prefix_refl _)
  · rfl

theorem node?_origin (tree : FileTree) (path : Path) :
    tree.node? (tree.origin path) = some .directory :=
  if_pos (tree.origin_leadsTo path)

/-! ## Putting one node -/

theorem node?_put_self (h : ¬place.leadsTo tree.workingDirectory = true) :
    (tree.put place node).node? place = some node := by
  rw [node?, put, if_neg h]
  exact List.lookup_cons_self

theorem node?_put_of_ne {other : Place} (h : other ≠ place) :
    (tree.put place node).node? other = tree.node? other := by
  have hbeq : (other == place) = false := by simpa using h
  rw [node?, node?, put, List.lookup_cons, hbeq]

theorem node?_makeDirectory_of_ne {other : Place} (h : other ≠ place) :
    (tree.makeDirectory place).node? other = tree.node? other := by
  unfold makeDirectory
  split
  · exact node?_put_of_ne h
  · rfl

/-- A directory that is made is there, unless there is a file. -/
theorem node?_makeDirectory_self (h : ∀ bytes, tree.node? place ≠ some (.file bytes)) :
    (tree.makeDirectory place).node? place = some .directory := by
  unfold makeDirectory
  split
  · next hnone =>
    refine node?_put_self ?_
    intro hleads
    rw [node?, if_pos hleads] at hnone
    exact absurd hnone (Option.some_ne_none _)
  · next hsome =>
    rcases hnode : tree.node? place with _ | _ | bytes
    · exact absurd hnode hsome
    · rfl
    · exact absurd hnode (h bytes)

/-- Making a directory makes no file. -/
theorem makeDirectory_ne_file {other : Place}
    (h : ∀ bytes, tree.node? other ≠ some (.file bytes)) :
    ∀ bytes, (tree.makeDirectory place).node? other ≠ some (.file bytes) := by
  by_cases hother : other = place
  · rw [← hother, node?_makeDirectory_self h]
    simp
  · rw [node?_makeDirectory_of_ne hother]
    exact h

/-! ## Adding by a name -/

/-- Components that go down, each of them to a name that a file can have. -/
def GoesDown (components : List String) : Prop :=
  ∀ component ∈ components,
    component ≠ Path.up ∧ terminator ∉ component.toList ∧ component.utf8ByteSize ≤ nameLimit

/-- No file lies on the way that some components take from a place. -/
def IsClear (tree : FileTree) (place : Place) (components : List String) : Prop :=
  ∀ front, front <+: components → front ≠ components →
    ∀ bytes, tree.node? ⟨place.names ++ front⟩ ≠ some (.file bytes)

/-- Adding something below a place changes nothing at the place and around it. -/
theorem node?_addFrom_of_length_le (hdown : GoesDown components) {other : Place}
    (hother : other.names.length ≤ place.names.length) :
    (tree.addFrom place node components).node? other = tree.node? other := by
  fun_induction addFrom tree place node components with
  | case1 => rfl
  | case2 tree place name =>
    have hname : (place.enter name).names = place.names ++ [name] :=
      Place.enter_names (hdown name List.mem_cons_self).1
    refine node?_put_of_ne ?_
    intro heq
    rw [heq, hname, List.length_append, List.length_singleton] at hother
    omega
  | case3 tree place component rest _ next ih =>
    obtain ⟨⟨hup, _⟩, hrest⟩ := List.forall_mem_cons.mp hdown
    have hnext : next.names = place.names ++ [component] := Place.enter_names hup
    have hlength := congrArg List.length hnext
    rw [List.length_append, List.length_singleton] at hlength
    rw [ih hrest (by omega)]
    refine node?_makeDirectory_of_ne ?_
    intro heq
    rw [heq] at hother
    omega

/-- One component is followed from a directory. -/
theorem lookFrom_cons {component : String} (hplace : tree.node? place = some .directory)
    (hlimit : component.utf8ByteSize ≤ nameLimit) (rest : List String) :
    tree.lookFrom place (component :: rest) = tree.lookFrom (place.enter component) rest := by
  rw [lookFrom, if_pos hplace, if_neg (by omega)]

theorem lookFrom_addFrom (hplace : tree.node? place = some .directory)
    (hdown : GoesDown components) (hclear : tree.IsClear place components)
    (hne : components ≠ [])
    (hnew : ¬(⟨place.names ++ components⟩ : Place).leadsTo tree.workingDirectory = true) :
    (tree.addFrom place node components).lookFrom place components = node.reading := by
  fun_induction addFrom tree place node components with
  | case1 => exact absurd rfl hne
  | case2 tree place name =>
    obtain ⟨hup, _, hlimit⟩ := hdown name List.mem_cons_self
    have hnext : place.enter name = ⟨place.names ++ [name]⟩ := if_neg hup
    have hother : place ≠ place.enter name := Place.ne_enter hup
    rw [lookFrom_cons (by rwa [node?_put_of_ne hother]) hlimit, lookFrom,
      node?_put_self (by rwa [hnext])]
  | case3 tree place component rest hrest next ih =>
    obtain ⟨⟨hup, _, hlimit⟩, hdown'⟩ := List.forall_mem_cons.mp hdown
    have hnext : next = ⟨place.names ++ [component]⟩ := if_neg hup
    have hother : place ≠ next := Place.ne_enter hup
    have hnames : ∀ front, next.names ++ front = place.names ++ component :: front := by
      intro front
      rw [hnext, List.append_assoc, List.singleton_append]
    have hfile : ∀ bytes, tree.node? next ≠ some (.file bytes) := by
      rw [hnext]
      refine hclear [component] (by simp) ?_
      intro hsame
      exact hrest (List.cons.inj hsame).2.symm
    have hplace' :
        ((tree.makeDirectory next).addFrom next node rest).node? place = some .directory := by
      rw [node?_addFrom_of_length_le hdown' (by simp [hnext]), node?_makeDirectory_of_ne hother]
      exact hplace
    rw [lookFrom_cons hplace' hlimit]
    refine ih (node?_makeDirectory_self hfile) hdown' ?_ hrest ?_
    · intro front hfront hpart
      rw [hnames]
      refine makeDirectory_ne_file (hclear (component :: front) ?_ ?_)
      · exact List.cons_prefix_cons.mpr ⟨rfl, hfront⟩
      · intro hsame
        exact hpart (List.cons.inj hsame).2
    · rw [hnames, makeDirectory_workingDirectory]
      exact hnew

/-- A file or a directory that is added is found by its name, if that goes down to a
place where nothing is known to be, past no file. -/
theorem look_add {name : String}
    (hpath : (Path.ofString name).display.utf8ByteSize ≤ pathLimit)
    (hdown : GoesDown (Path.ofString name).components)
    (hclear : tree.IsClear (tree.origin (Path.ofString name)) (Path.ofString name).components)
    (hnew : ¬(⟨(tree.origin (Path.ofString name)).names ++
      (Path.ofString name).components⟩ : Place).leadsTo tree.workingDirectory = true) :
    (tree.add name node).look (Path.ofString name) = node.reading := by
  have hne : (Path.ofString name).components ≠ [] := by
    intro hnil
    rw [hnil, List.append_nil] at hnew
    exact hnew (tree.origin_leadsTo _)
  have hsame : (tree.add name node).origin (Path.ofString name) =
      tree.origin (Path.ofString name) := by
    rw [origin, origin, add, addFrom_workingDirectory]
  have hgiven : ¬∃ component ∈ (Path.ofString name).components,
      terminator ∈ component.toList := by
    intro hholds
    obtain ⟨component, hmem, hholds⟩ := hholds
    exact (hdown component hmem).2.1 hholds
  rw [look, if_neg hgiven, if_neg (by omega), hsame]
  exact lookFrom_addFrom (tree.node?_origin _) hdown hclear hne hnew

/-- Only names that are too long are refused. -/
theorem look_ne_refused {path : Path} (hpath : path.display.utf8ByteSize ≤ pathLimit)
    (hnames : ∀ name ∈ path.components, name.utf8ByteSize ≤ nameLimit) (fault : SystemFault) :
    tree.look path ≠ .refused fault := by
  unfold look
  split
  · simp
  rw [if_neg (by omega)]
  generalize tree.origin path = place
  generalize path.components = components at hnames
  induction components generalizing place with
  | nil =>
    rw [lookFrom]
    split
    · simp
    · next node _ => cases node <;> simp [Node.reading]
  | cons name rest ih =>
    obtain ⟨hname, hrest⟩ := List.forall_mem_cons.mp hnames
    rw [lookFrom]
    split
    · rw [if_neg (by omega)]
      exact ih _ hrest
    · simp

/-- A single name that is too long is refused in every tree. -/
theorem look_eq_refused {name : String} (hslash : '/' ∉ name.toList)
    (hterminator : terminator ∉ name.toList) (hname : nameLimit < name.utf8ByteSize) :
    tree.look (Path.ofString name) = .refused .nameTooLong := by
  have hne : name ≠ "" := by
    intro heq
    rw [heq] at hname
    exact absurd hname (by decide)
  have hhere : name ≠ Path.here := by
    intro heq
    rw [heq] at hname
    exact absurd hname (by decide)
  rw [Path.ofString_eq_singleton hslash hne hhere, look, if_neg (by simpa using hterminator)]
  split
  · rfl
  · rw [lookFrom, if_pos (tree.node?_origin _), if_pos hname]

end FileTree
end QueryHighlight
