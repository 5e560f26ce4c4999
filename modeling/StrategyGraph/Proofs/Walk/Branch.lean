import StrategyGraph.Proofs.Walk.Reach

/-!
# Edges on both branches

An edge out of a condition is on at most one of its branches, unless its handle names the one branch
and its label the other: then it is on both, and is followed whatever the outcome is.

* `bearsTag_apart` : a handle bears at most one of two tags;
* `Edge.Contradictory` : handle and label name different branches;
* `branches_overlap` : **which edges are on both branches.**
-/

namespace StrategyGraph

theorem suffix_of_bearsTag {tag handle : String} (h : bearsTag tag handle = true) :
    tag.toList <:+ handle.toList := by
  rw [bearsTag, Bool.or_eq_true, decide_eq_true_eq, Text.endsIn, List.isSuffixOf_iff_suffix,
    String.toList_append] at h
  rcases h with rfl | h
  · exact List.suffix_rfl
  · exact (List.suffix_append _ _).trans h

/-- A handle that bears the tag for an outcome does not bear the one for the other outcome. -/
theorem bearsTag_apart {tag : Bool → String} {handle : String} {outcome : Bool}
    (htag : ∀ b, ¬(tag b).toList <:+ (tag !b).toList) (h : bearsTag (tag outcome) handle = true) :
    bearsTag (tag !outcome) handle = false := by
  by_contra hother
  have hsuffix := suffix_of_bearsTag h
  have hsuffix' := suffix_of_bearsTag (Bool.not_eq_false _ ▸ hother)
  -- Of two ends of one handle, the shorter one is an end of the longer one.
  rcases List.suffix_or_suffix_of_suffix hsuffix hsuffix' with hshort | hshort
  · exact htag outcome hshort
  · exact htag (!outcome) (by rwa [Bool.not_not])

theorem bearsTag_append (id tag : String) : bearsTag tag (id ++ "-" ++ tag) = true := by
  simp [bearsTag, Text.endsIn, List.isSuffixOf_iff_suffix, String.append_assoc]

namespace Edge

variable {e : Edge}

/-- The handle names the one branch and the label the other. -/
def Contradictory (e : Edge) : Prop :=
  ∃ outcome, bearsTag (branchName outcome) e.handleText = true ∧ e.labelText = branchName !outcome

theorem names_iff {outcome : Bool} : e.names outcome = true ↔
    bearsTag (branchName outcome) e.handleText = true ∨ e.labelText = branchName outcome := by
  simp [names]

theorem names_both_iff : e.names true = true ∧ e.names false = true ↔ e.Contradictory := by
  have hapart : ∀ b, bearsTag (branchName b) e.handleText = true →
      bearsTag (branchName !b) e.handleText = false := fun b => bearsTag_apart (by decide)
  rw [names_iff, names_iff]
  constructor
  · rintro ⟨hhandle | hlabel, hhandle' | hlabel'⟩
    · exact absurd hhandle' (Bool.eq_false_iff.1 (hapart true hhandle))
    · exact ⟨true, hhandle, hlabel'⟩
    · exact ⟨false, hhandle', hlabel⟩
    · exact absurd (hlabel.symm.trans hlabel') (by decide)
  · rintro ⟨outcome, hhandle, hlabel⟩
    cases outcome with
    | true => exact ⟨.inl hhandle, .inr hlabel⟩
    | false => exact ⟨.inr hlabel, .inl hhandle⟩

/-- The side at which an edge leaves puts it on one branch, and only if nothing names a branch. -/
theorem takesBranch_both_iff :
    e.takesBranch true = true ∧ e.takesBranch false = true ↔ e.Contradictory := by
  have hapart : bearsTag (branchSide true) e.handleText = true →
      bearsTag (branchSide false) e.handleText = false := bearsTag_apart (by decide)
  rw [← names_both_iff, takesBranch, takesBranch]
  cases e.names true <;> cases e.names false <;> simp
  exact hapart

end Edge

theorem SubGraph.takesBranch_of_enabled {s : SubGraph} {conditions : String → Option Condition}
    {ctx : BarContext} {n : Node} {e : Edge} {holds : Bool} (hrole : n.kind.role = .condition)
    (h : outcome conditions ctx n.id = .ok holds) (he : e ∈ s.enabled conditions ctx n) :
    e.takesBranch holds = true := by
  rw [enabled, hrole] at he
  simp only [h, Option.mem_toList] at he
  simpa using List.find?_some he

/-- **Which edges are on both branches** of a condition: those whose handle names the one branch and
whose label names the other. A handle names a branch whatever the id before the name is. An edge
that is followed where a condition holds and where it does not hold is on both branches. -/
theorem branches_overlap (e : Edge) :
    (e.takesBranch true = true ∧ e.takesBranch false = true ↔ e.Contradictory) ∧
    (∀ id outcome, e.handleText = Text.lower id ++ "-" ++ branchName outcome →
      e.takesBranch outcome = true) ∧
    ∀ (s : SubGraph) conditions (ctx ctx' : BarContext) (n : Node), n.kind.role = .condition →
      SubGraph.outcome conditions ctx n.id = .ok true →
      SubGraph.outcome conditions ctx' n.id = .ok false →
      e ∈ s.enabled conditions ctx n → e ∈ s.enabled conditions ctx' n → e.Contradictory := by
  refine ⟨Edge.takesBranch_both_iff, ?_, ?_⟩
  · intro id outcome hid
    have hnames : e.names outcome = true := Edge.names_iff.2 (.inl (hid ▸ bearsTag_append _ _))
    simp [Edge.takesBranch, hnames]
  · intro s conditions ctx ctx' n hrole h h' he he'
    exact Edge.takesBranch_both_iff.1
      ⟨SubGraph.takesBranch_of_enabled hrole h he, SubGraph.takesBranch_of_enabled hrole h' he'⟩

/-- An edge with the handle of the true branch and the label of the false one. -/
def crossed : Edge :=
  { id := "e", source := "low", target := "enter", sourceHandle := some "low-true",
    label := some "false" }

/-- A condition from which such an edge leads to a purchase. -/
def crossing : SubGraph where
  nodes := [{ id := "low", kind := .condition }, { id := "enter", kind := .buy }]
  edges := [crossed]
  entryIds := ["low"]

/-- The close is below fifteen. -/
def crossingCondition : Condition where
  nodeId := "low"
  left := some { parameterId := none, label := .string "close", value := .string "" }
  right := some (.ofValue (.number (.int 15)))
  operator := some "<"

theorem branches_overlap_crossed :
    SubGraph.outcome (fun _ => some crossingCondition) ⟨0, .int 10, none, []⟩ "low" = .ok true ∧
    SubGraph.outcome (fun _ => some crossingCondition) ⟨1, .int 20, none, []⟩ "low" = .ok false ∧
    crossed.Contradictory := by
  have htrue : SubGraph.outcome (fun _ => some crossingCondition) ⟨0, .int 10, none, []⟩ "low" =
    .ok true := rfl
  have hfalse : SubGraph.outcome (fun _ => some crossingCondition) ⟨1, .int 20, none, []⟩ "low" =
    .ok false := rfl
  exact ⟨htrue, hfalse, (branches_overlap crossed).2.2 crossing _ _ _
    { id := "low", kind := .condition } rfl htrue hfalse (List.mem_singleton.2 rfl)
    (List.mem_singleton.2 rfl)⟩

/-- The crossed edge is on both branches, and the purchase behind it is found whether the condition
holds or not. -/
theorem crossed_followed :
    (crossed.takesBranch true = true ∧ crossed.takesBranch false = true) ∧
    (crossing.nextAction (fun _ => some crossingCondition) ⟨0, .int 10, none, []⟩).outcome =
      .ok (some ⟨.buy, "enter"⟩) ∧
    (crossing.nextAction (fun _ => some crossingCondition) ⟨1, .int 20, none, []⟩).outcome =
      .ok (some ⟨.buy, "enter"⟩) :=
  ⟨by decide, rfl, rfl⟩

end StrategyGraph
