import StrategyGraph.Proofs.Blueprint.Sifted
import StrategyGraph.Proofs.Graph.Outline

/-!
# Edges in several shapes

Editors write the ends of an edge in three shapes. In which of them an edge is written does not
matter to what is read.

* `Edge.Draft` : what is written about an edge, whatever the shape;
* `Edge.Draft.Stored` : a value is a draft in one of the shapes;
* `Edge.readAll_stored` : **edges are read alike from all shapes.**
-/

namespace StrategyGraph

/-- Two objects have the same fields, in whatever order. -/
def Fields.Same (fields fields' : Fields) : Prop := ∀ key, fields.get? key = fields'.get? key

namespace Fields.Same

variable {fields fields' : Fields} (h : fields.Same fields')
include h

theorem get_eq (key : String) : fields.get key = fields'.get key :=
  congrArg (fun value => value.getD .null) (h key)

theorem has_eq (key : String) : fields.has key = fields'.has key := congrArg Option.isSome (h key)

end Fields.Same

namespace Edge

/-- The fields that name the ends of an edge in one of the shapes. -/
def endKeys : List String :=
  ["source", "target", "sourceHandle", "sourceNode", "targetNode", "sourcePort", "from", "to"]

/-- What is written about an edge. -/
structure Draft where
  /-- The node that it leaves. -/
  source : Json
  /-- The node that it leads to. -/
  target : Json
  /-- The handle at which it leaves its source. -/
  handle : Option { text : String // text ≠ "" }
  /-- The id, the label and whatever else is written. -/
  others : Fields
  /-- Nothing else is written about the ends. -/
  apart : ∀ key ∈ endKeys, others.get? key = none

namespace Draft

variable (d : Draft)

/-- The handle as a value. -/
def port : Json := Json.ofOption (fun text => .string text.val) d.handle

/-- The value is the draft, in one of three shapes. -/
inductive Stored (d : Draft) : Json → Prop
  /-- The ends and the handle stand beside the rest. -/
  | plain {fields : Fields}
      (h : fields.Same
        (("source", d.source) :: ("target", d.target) :: ("sourceHandle", d.port) :: d.others)) :
      Stored d (.object fields)
  /-- They do so under other names. -/
  | ported {fields : Fields}
      (h : fields.Same
        (("sourceNode", d.source) :: ("targetNode", d.target) :: ("sourcePort", d.port) ::
          d.others)) :
      Stored d (.object fields)
  /-- Each end is an object of its own. -/
  | nested {fields ends ends' : Fields}
      (hends : ends.Same [("nodeId", d.source), ("port", d.port)])
      (hends' : ends'.Same [("nodeId", d.target)])
      (h : fields.Same (("from", .object ends) :: ("to", .object ends') :: d.others)) :
      Stored d (.object fields)

/-- The edge of a draft at a place of a list, or why there is none. -/
def edge (index : Nat) : Except Warning Edge :=
  match textOf? d.source, textOf? d.target with
  | some source, some target =>
    .ok
      { id := ((d.others.get "id").orElse (.string s!"e{index}")).text
        source
        target
        sourceHandle := textOf? d.port
        label := textOf? (d.others.get "label") }
  | _, _ => .error (.edgeWithoutEnds index)

variable {d} {fields ends : Fields} {j : Json}

theorem port_orElse : d.port.orElse .null = d.port := by
  rw [port]
  cases d.handle with
  | none => rfl
  | some text => simp [Json.ofOption, Json.orElse, Json.isTruthy, text.property]

theorem endFields_object {key : String} {value : Json} (h : ends.get? key = some value) :
    endFields (.object ends) = .ok ends := by
  cases ends with
  | nil => cases h
  | cons field ends => rfl

/-- **The ends of a draft are read from every shape.** -/
theorem Stored.readEnds (h : d.Stored (.object fields)) :
    readEnds fields = .ok (d.source, d.target, d.port) := by
  have hsource : "sourceNode" ∈ endKeys := by simp [endKeys]
  have hfrom : "from" ∈ endKeys := by simp [endKeys]
  have hport : "sourcePort" ∈ endKeys := by simp [endKeys]
  cases h with
  | plain h =>
    simp only [Edge.readEnds, h.has_eq, h.get_eq]
    simp [Fields.has, Fields.get, Fields.get?_cons, d.apart _ hsource, d.apart _ hfrom,
      d.apart _ hport, port_orElse]
    rfl
  | ported h =>
    simp only [Edge.readEnds, h.has_eq, h.get_eq]
    simp [Fields.has, Fields.get, Fields.get?_cons, d.apart _ hfrom]
    rfl
  | nested hleaving hentering h =>
    have hleaves := endFields_object (hleaving "nodeId")
    have henters := endFields_object (hentering "nodeId")
    simp only [Edge.readEnds, h.has_eq, h.get_eq]
    simp [Fields.has, Fields.get, Fields.get?_cons, hleaves, henters, hleaving _,
      hentering _, ok_bind]

/-- What is written beside the ends is read from every shape. -/
theorem Stored.get_eq (h : d.Stored (.object fields)) (key : String) (hkey : key ∉ endKeys) :
    fields.get key = d.others.get key := by
  simp only [endKeys, List.mem_cons, List.not_mem_nil, or_false, not_or] at hkey
  cases h with
  | plain h | ported h | nested _ _ h =>
    rw [h.get_eq]
    simp [Fields.get, Fields.get?_cons, hkey]

theorem Stored.read (h : d.Stored j) (index : Nat) : Edge.read index j = .ok (d.edge index) := by
  obtain ⟨fields, rfl⟩ : ∃ fields, j = .object fields := by
    cases h with
    | plain | ported | nested => exact ⟨_, rfl⟩
  rw [Edge.read, h.readEnds, ok_bind, h.get_eq "id" (by simp [endKeys]),
    h.get_eq "label" (by simp [endKeys]), edge]
  dsimp only
  cases textOf? d.source with
  | none => rfl
  | some source => cases textOf? d.target <;> rfl

end Draft

/-- What becomes of drafts from a place on. -/
def draftFates (nodeIds : List String) (index : Nat) (drafts : List Draft) :
    List (Except Warning Edge) :=
  (drafts.zipIdx index).map fun p => (p.1.edge p.2).bind (checkEnds nodeIds)

/-- **Edges are read alike from all shapes**: what is kept and what is reported depends on the drafts
only. -/
theorem readAll_stored {drafts : List Draft} {entries : List Json}
    (h : List.Forall₂ Draft.Stored drafts entries) (nodeIds : List String) :
    readAll nodeIds (entries.map .inl) =
      .ok (kept (draftFates nodeIds 0 drafts), reported (draftFates nodeIds 0 drafts)) := by
  have hfates : ∀ index, ((entries.map .inl).zipIdx index).mapM (fate nodeIds) =
      .ok (draftFates nodeIds index drafts) := by
    induction h with
    | nil => exact fun _ => rfl
    | cons hentry _ ih =>
      intro index
      rw [List.map_cons, List.zipIdx_cons]
      refine mapM_cons_eq_ok.2 ⟨_, _, ?_, ih (index + 1), rfl⟩
      rw [fate, readEntry, hentry.read]
      rfl
  rw [readAll, readEntries_eq_mapM, hfates]
  rfl

end Edge

end StrategyGraph
