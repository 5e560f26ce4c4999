import StrategyGraph.Proofs.Blueprint.Reading

/-!
# Lists that are read entry by entry

A list of nodes or of edges is read entry by entry, and each entry is kept or reported: nothing is
lost without a warning, and what was read once is read again as it is.

* `kept` and `reported` : the things and the warnings that a list of fates comes to;
* `Node.Sifted` and `Edge.Sifted` : how the things and warnings of a list relate to its entries;
* `Node.sifted_readAll` and `Edge.sifted_readAll` : **they do so for every list that is read.**
-/

namespace StrategyGraph

/-! ### Fates -/

section Fates

variable {α : Type}

/-- The things that are kept. -/
def kept (fates : List (Except Warning α)) : List α := fates.filterMap Except.toOption

/-- The warning for an entry that is not kept. -/
def warning? : Except Warning α → Option Warning
  | .ok _ => none
  | .error w => some w

/-- The warnings for the entries that are not kept. -/
def reported (fates : List (Except Warning α)) : List Warning := fates.filterMap warning?

variable {fates : List (Except Warning α)}

@[simp] theorem kept_ok (a : α) : kept (.ok a :: fates) = a :: kept fates := rfl

@[simp] theorem kept_error (w : Warning) : kept (.error w :: fates) = kept fates := rfl

@[simp] theorem reported_ok (a : α) : reported (.ok a :: fates) = reported fates := rfl

@[simp] theorem reported_error (w : Warning) :
    reported (.error w :: fates) = w :: reported fates := rfl

/-- Each entry is kept or reported, never both. -/
theorem length_kept_add (fates : List (Except Warning α)) :
    (kept fates).length + (reported fates).length = fates.length := by
  induction fates with
  | nil => rfl
  | cons fate fates ih =>
    cases fate with
    | ok a =>
      rw [kept_ok, reported_ok, List.length_cons, List.length_cons]
      omega
    | error w =>
      rw [kept_error, reported_error, List.length_cons, List.length_cons]
      omega

end Fates

/-! ### Nodes -/

namespace Node

/-- A node whose id is new. -/
def checkNew (ids : List String) (n : Node) : Except Warning Node :=
  if n.id ∈ ids then .error (.duplicateNode n.id) else .ok n

/-- The nodes among the entries, whether they are kept or not. -/
def readable (entries : List (Json ⊕ Node)) : List Node := entries.filterMap readable?

/-- What becomes of an entry at a place of a list: it is kept if it is read as a node and no earlier
entry is read as one with the same id. -/
def fate (entries : List (Json ⊕ Node)) (p : (Json ⊕ Node) × Nat) :
    Except Fault (Except Warning Node) :=
  (readEntry p.1).map (·.bind (checkNew ((readable (entries.take p.2)).map Node.id)))

/-- How nodes and warnings relate to the entries they are read from. -/
structure Sifted (entries : List (Json ⊕ Node)) (nodes : List Node) (warnings : List Warning) :
    Prop where
  /-- No two nodes have the same id. -/
  nodup : (nodes.map Node.id).Nodup
  /-- The nodes stand in the order of their entries. -/
  inOrder : nodes.Sublist (readable entries)
  /-- Of the entries that are nodes with one id, the first is kept. -/
  first : ∀ id, nodes.find? (·.id = id) = (readable entries).find? (·.id = id)
  /-- Each entry is kept or reported, in order. -/
  each : ∃ fates, entries.zipIdx.mapM (fate entries) = .ok fates ∧ nodes = kept fates ∧
    warnings = reported fates
  /-- No entry is lost. -/
  count : nodes.length + warnings.length = entries.length
  /-- What was read once is read again as it is. -/
  again : readAll (nodes.map .inr) = .ok (nodes, [])

variable {seen : List String} {entries : List (Json ⊕ Node)} {nodes : List Node}
  {warnings : List Warning}

theorem readable_cons_of_error {entry : Json ⊕ Node} {w : Warning}
    (h : readEntry entry = .ok (.error w)) : readable (entry :: entries) = readable entries :=
  List.filterMap_cons_none (by rw [readable?, h])

theorem readable_cons_of_ok {entry : Json ⊕ Node} {n : Node} (h : readEntry entry = .ok (.ok n)) :
    readable (entry :: entries) = n :: readable entries :=
  List.filterMap_cons_some (by rw [readable?, h])

theorem readEntries_inr (hnodup : (nodes.map Node.id).Nodup) (hnew : ∀ n ∈ nodes, n.id ∉ seen) :
    readEntries seen (nodes.map .inr) = .ok (nodes, []) := by
  induction nodes generalizing seen with
  | nil => rfl
  | cons n ns ih =>
    rw [List.map_cons, List.nodup_cons] at hnodup
    obtain ⟨hn, hns⟩ := List.forall_mem_cons.1 hnew
    have hrest : readEntries (n.id :: seen) (ns.map .inr) = .ok (ns, []) := by
      refine ih hnodup.2 fun m hm hmem => ?_
      rcases List.mem_cons.1 hmem with heq | hmem
      · exact hnodup.1 (List.mem_map.2 ⟨m, hm, heq⟩)
      · exact hns m hm hmem
    rw [List.map_cons, readEntries, readEntry, ok_bind]
    dsimp only
    rw [if_neg hn, hrest]
    rfl

theorem find?_readEntries (h : readEntries seen entries = .ok (nodes, warnings)) {id : String}
    (hid : id ∉ seen) : nodes.find? (·.id = id) = (readable entries).find? (·.id = id) := by
  induction entries generalizing seen nodes warnings with
  | nil =>
    cases h
    rfl
  | cons entry entries ih =>
    rcases readEntries_cons h with ⟨w, rest, hentry | ⟨n, hentry, hold, -⟩, hrest, -⟩ |
      ⟨n, ns, hentry, -, hrest, rfl⟩
    · rw [readable_cons_of_error hentry]
      exact ih hrest hid
    · have hne : n.id ≠ id := fun heq => hid (heq ▸ hold)
      rw [readable_cons_of_ok hentry, List.find?_cons_of_neg (by simpa using hne)]
      exact ih hrest hid
    · rw [readable_cons_of_ok hentry]
      by_cases heq : n.id = id
      · simp [heq]
      · rw [List.find?_cons_of_neg (by simpa using heq), List.find?_cons_of_neg (by simpa using heq)]
        exact ih hrest (by simpa [Ne.symm heq] using hid)

/-- The fate of an entry after those that are `done`, and those of the entries after it. -/
theorem fates_cons {done : List (Json ⊕ Node)} {entry : Json ⊕ Node} {r : Except Warning Node}
    {fates : List (Except Warning Node)} (hentry : readEntry entry = .ok r)
    (h : (entries.zipIdx (done ++ [entry]).length).mapM (fate (done ++ [entry] ++ entries)) =
      .ok fates) :
    ((entry :: entries).zipIdx done.length).mapM (fate (done ++ entry :: entries)) =
      .ok (r.bind (checkNew ((readable done).map Node.id)) :: fates) := by
  rw [List.append_assoc, List.length_append] at h
  rw [List.zipIdx_cons]
  refine mapM_cons_eq_ok.2 ⟨_, fates, ?_, h, rfl⟩
  rw [fate, List.take_left, hentry]
  rfl

/-- Each entry has its fate. The entries before are `done`, and `seen` are the ids of the nodes among
them. -/
theorem fates_readEntries (done : List (Json ⊕ Node))
    (hseen : ∀ id, id ∈ seen ↔ id ∈ (readable done).map Node.id)
    (h : readEntries seen entries = .ok (nodes, warnings)) :
    ∃ fates, (entries.zipIdx done.length).mapM (fate (done ++ entries)) = .ok fates ∧
      nodes = kept fates ∧ warnings = reported fates := by
  induction entries generalizing seen nodes warnings done with
  | nil =>
    cases h
    exact ⟨[], rfl, rfl, rfl⟩
  | cons entry entries ih =>
    have hdone : readable (done ++ [entry]) = readable done ++ readable [entry] :=
      List.filterMap_append
    rcases readEntries_cons h with ⟨w, rest, hentry | ⟨n, hentry, hold, rfl⟩, hrest, rfl⟩ |
      ⟨n, ns, hentry, hnew, hrest, rfl⟩
    · have hsame : ∀ id, id ∈ seen ↔ id ∈ (readable (done ++ [entry])).map Node.id := by
        intro id
        rw [hdone, readable_cons_of_error hentry, hseen id]
        simp [readable]
      obtain ⟨fates, hfates, rfl, rfl⟩ := ih (done ++ [entry]) hsame hrest
      exact ⟨_, fates_cons hentry hfates, rfl, rfl⟩
    · have hsame : ∀ id, id ∈ seen ↔ id ∈ (readable (done ++ [entry])).map Node.id := by
        intro id
        rw [hdone, readable_cons_of_ok hentry, List.map_append, List.mem_append, ← hseen id]
        refine ⟨.inl, ?_⟩
        rintro (hid | hid)
        · exact hid
        · obtain rfl : id = n.id := by simpa [readable] using hid
          exact hold
      obtain ⟨fates, hfates, rfl, rfl⟩ := ih (done ++ [entry]) hsame hrest
      have hcheck : checkNew ((readable done).map Node.id) n = .error (.duplicateNode n.id) :=
        if_pos ((hseen n.id).1 hold)
      refine ⟨_, fates_cons hentry hfates, ?_⟩
      rw [Except.bind, hcheck]
      exact ⟨rfl, rfl⟩
    · have hmore : ∀ id, id ∈ n.id :: seen ↔ id ∈ (readable (done ++ [entry])).map Node.id := by
        intro id
        rw [hdone, readable_cons_of_ok hentry, List.map_append, List.mem_append, ← hseen id,
          List.mem_cons, or_comm]
        simp [readable]
      obtain ⟨fates, hfates, rfl, rfl⟩ := ih (done ++ [entry]) hmore hrest
      have hcheck : checkNew ((readable done).map Node.id) n = .ok n :=
        if_neg fun hmem => hnew ((hseen n.id).2 hmem)
      refine ⟨_, fates_cons hentry hfates, ?_⟩
      rw [Except.bind, hcheck]
      exact ⟨rfl, rfl⟩

/-- **No entry of a list of nodes is lost.** -/
theorem sifted_readAll (h : readAll entries = .ok (nodes, warnings)) :
    Sifted entries nodes warnings := by
  obtain ⟨hnodup, hnew⟩ := readEntries_nodup h
  obtain ⟨fates, hfates, hnodes, hwarnings⟩ := fates_readEntries [] (by simp [readable]) h
  refine ⟨hnodup, readEntries_sublist h, fun id => find?_readEntries h List.not_mem_nil,
    ⟨fates, hfates, hnodes, hwarnings⟩, ?_, readEntries_inr hnodup hnew⟩
  rw [hnodes, hwarnings, length_kept_add, length_of_mapM hfates, List.length_zipIdx]

end Node

/-! ### Edges -/

namespace Edge

/-- What becomes of an entry at a place of a list: it is kept if it is read as an edge and both its
ends are known. -/
def fate (nodeIds : List String) (p : (Json ⊕ Edge) × Nat) : Except Fault (Except Warning Edge) :=
  (readEntry p.2 p.1).map (·.bind (checkEnds nodeIds))

/-- How edges and warnings relate to the entries they are read from. -/
structure Sifted (nodeIds : List String) (entries : List (Json ⊕ Edge)) (edges : List Edge)
    (warnings : List Warning) : Prop where
  /-- Each entry is kept or reported, in order. -/
  each : ∃ fates, entries.zipIdx.mapM (fate nodeIds) = .ok fates ∧ edges = kept fates ∧
    warnings = reported fates
  /-- The ends of the edges are known. -/
  ends : ∀ e ∈ edges, e.source ∈ nodeIds ∧ e.target ∈ nodeIds
  /-- No entry is lost. -/
  count : edges.length + warnings.length = entries.length
  /-- What was read once is read again as it is. -/
  again : readAll nodeIds (edges.map .inr) = .ok (edges, [])

variable {nodeIds : List String} {index : Nat} {entries : List (Json ⊕ Edge)} {edges : List Edge}
  {warnings : List Warning}

theorem readEntries_eq_mapM (nodeIds : List String) (index : Nat) (entries : List (Json ⊕ Edge)) :
    readEntries nodeIds index entries =
      ((entries.zipIdx index).mapM (fate nodeIds)).map fun fates => (kept fates, reported fates) := by
  induction entries generalizing index with
  | nil => rfl
  | cons entry entries ih =>
    rw [readEntries, ih, List.zipIdx_cons, List.mapM_cons, fate]
    cases readEntry index entry with
    | error fault => rfl
    | ok r =>
      cases (entries.zipIdx (index + 1)).mapM (fate nodeIds) with
      | error fault => rfl
      | ok fates =>
        simp only [Except.map, bind, Except.bind]
        cases r with
        | error w => rfl
        | ok e =>
          dsimp only
          cases checkEnds nodeIds e <;> rfl

theorem readEntries_inr (h : ∀ e ∈ edges, e.source ∈ nodeIds ∧ e.target ∈ nodeIds) :
    readEntries nodeIds index (edges.map .inr) = .ok (edges, []) := by
  induction edges generalizing index with
  | nil => rfl
  | cons e es ih =>
    obtain ⟨he, hes⟩ := List.forall_mem_cons.1 h
    have hcheck : (Except.ok e : Except Warning Edge).bind (checkEnds nodeIds) = .ok e := if_pos he
    rw [List.map_cons, readEntries, readEntry, ok_bind, ih hes, ok_bind]
    simp only [hcheck]
    rfl

/-- **No entry of a list of edges is lost.** -/
theorem sifted_readAll (h : readAll nodeIds entries = .ok (edges, warnings)) :
    Sifted nodeIds entries edges warnings := by
  have hends := readEntries_ends h
  rw [readAll, readEntries_eq_mapM, map_eq_ok] at h
  obtain ⟨fates, hfates, h⟩ := h
  cases h
  refine ⟨⟨fates, hfates, rfl, rfl⟩, hends, ?_, readEntries_inr hends⟩
  rw [length_kept_add, length_of_mapM hfates, List.length_zipIdx]

end Edge

end StrategyGraph
