import StrategyGraph.Proofs.Json.Shown
import StrategyGraph.Server.Route

/-!
# Addresses of jobs

The address of a job ends in the text of its id. How it is read is up to the web framework. The
server relies on little: words of letters, digits and hyphens mean nothing but themselves. Other
texts may be read as something else, or as several segments, or as none.

* `Framework.Lawful` : what the server relies on;
* `Framework.idOf?` : the id that the end of an address is read as;
* `Route.ofPath?_statusPath` and `Route.ofPath?_resultsPath` : **the addresses of a job lead to the
  id that the text of its id is read as.**
-/

namespace StrategyGraph.Server

/-- The segment is a word of letters, digits, hyphens and underscores, and not empty. -/
def isPlain (segment : String) : Bool :=
  segment ≠ "" && segment.toList.all fun c => c.isAlphanum || c = '-' || c = '_'

theorem isPlain_toString (n : Nat) : isPlain (toString n) = true := by
  have hdigits : (toString n).toList = Nat.toDigits 10 n := by simp [toString]
  have hne : toString n ≠ "" := by
    intro hempty
    rw [hempty] at hdigits
    exact Nat.toDigits_ne_nil hdigits.symm
  rw [isPlain, hdigits, decide_eq_true hne, Bool.true_and, List.all_eq_true]
  intro c hc
  have hdigit : c.isDigit = true := Nat.isDigit_of_mem_toDigits (by decide) (by decide) hc
  simp [Char.isAlphanum, hdigit]

namespace Framework

/-- What the server relies on when paths and bodies are read. -/
structure Lawful (w : Framework) : Prop where
  /-- A path starts at the root. -/
  rooted : ∀ segment path, isPlain segment = true →
    w.segments ("/" ++ segment ++ "/" ++ path) = "" :: w.segments (segment ++ "/" ++ path)
  /-- What follows a plain segment is read on its own. -/
  divided : ∀ segment path, isPlain segment = true →
    w.segments (segment ++ "/" ++ path) = segment :: w.segments path
  /-- A plain segment stands for itself. -/
  plain : ∀ segment, isPlain segment = true → w.segments segment = [segment]
  /-- What a body holds can be shown, as it was read from a text. -/
  shown : ∀ r, (w.json r).HasText

variable {w : Framework} {text id : String}

variable (w) in
/-- The id that a text at the end of an address is read as: a single segment that is not empty. -/
def idOf? (text : String) : Option String :=
  match w.segments text with
  | [id] => if id = "" then none else some id
  | _ => none

theorem idOf?_ne_empty (h : w.idOf? text = some id) : id ≠ "" := by
  unfold idOf? at h
  split at h
  · split at h
    · cases h
    · next hne =>
      cases h
      exact hne
  · cases h

theorem Lawful.idOf?_plain (hw : w.Lawful) (h : isPlain text = true) :
    w.idOf? text = some text := by
  have hne : text ≠ "" := by
    rintro rfl
    cases h
  rw [idOf?, hw.plain text h]
  exact if_neg hne

/-- A framework for which nothing is special in a path but its slashes. -/
def plain : Framework where
  segments path := (path.toList.splitOn '/').map String.ofList
  json r := (Json.parse r.body).toOption.getD .null

theorem slash_not_mem (h : isPlain text = true) : '/' ∉ text.toList := by
  intro hslash
  have hall := (Bool.and_eq_true_iff.1 h).2
  cases List.all_eq_true.1 hall '/' hslash

theorem segments_plain (path : String) :
    plain.segments path = (path.toList.splitOn '/').map String.ofList := rfl

theorem segments_plain_append (h : '/' ∉ text.toList) (path : String) :
    plain.segments (text ++ "/" ++ path) = text :: plain.segments path := by
  rw [segments_plain, String.toList_append, String.toList_append, List.append_assoc]
  change List.map _ (List.splitOn '/' (text.toList ++ '/' :: path.toList)) = _
  rw [List.splitOn_append_cons_self_of_not_mem h, List.map_cons, String.ofList_toList,
    segments_plain]

theorem lawful_plain : plain.Lawful where
  rooted segment path _ := by
    have hroot : "/" ++ segment ++ "/" ++ path = "" ++ "/" ++ (segment ++ "/" ++ path) := by
      simp only [String.empty_append, String.append_assoc]
    rw [hroot, segments_plain_append (by simp)]
  divided segment path h := segments_plain_append (slash_not_mem h) path
  plain segment h := by
    rw [segments_plain, List.splitOn_eq_singleton (slash_not_mem h), List.map_singleton,
      String.ofList_toList]
  shown r := by
    rw [plain]
    dsimp only
    cases h : Json.parse r.body with
    | error => exact Json.hasText_null
    | ok j => exact Json.hasText_of_parse h

end Framework

namespace Route

variable {w : Framework}

theorem ofSegments?_of_length {segments : List String} (h : 4 < segments.length) :
    ofSegments? segments = none := by
  unfold ofSegments?
  split <;> simp at h ⊢

/-- The last segments of an address are an id, or the address is not known. -/
theorem ofSegments?_job {name : String} (hname : ofSegments? ["api", "backtest", name] = none)
    (text : String) : ofSegments? ("api" :: "backtest" :: name :: w.segments text) =
      (w.idOf? text).bind fun id => ofSegments? ["api", "backtest", name, id] := by
  unfold Framework.idOf?
  cases w.segments text with
  | nil => exact hname
  | cons id rest =>
    cases rest with
    | nil =>
      dsimp only
      split
      · next hempty =>
        subst hempty
        simp [ofSegments?]
      · rfl
    | cons _ _ => exact ofSegments?_of_length (by simp)

theorem ofPath?_below (hw : w.Lawful) {name : String} (hname : isPlain name = true)
    (path : String) : ofPath? w ("/api/backtest/" ++ name ++ "/" ++ path) =
      ofSegments? ("api" :: "backtest" :: name :: w.segments path) := by
  have hpath : "/api/backtest/" ++ name ++ "/" ++ path =
      "/" ++ "api" ++ "/" ++ ("backtest" ++ "/" ++ (name ++ "/" ++ path)) := by
    rw [show "/api/backtest/" = "/" ++ "api" ++ "/" ++ "backtest" ++ "/" from rfl]
    simp only [String.append_assoc]
  rw [ofPath?, hpath, hw.rooted "api" _ (by decide), hw.divided "api" _ (by decide),
    hw.divided "backtest" _ (by decide), hw.divided name _ hname]
  rfl

theorem ofPath?_start (hw : w.Lawful) : ofPath? w "/api/backtest/start" = some start := by
  have hpath : "/api/backtest/start" = "/" ++ "api" ++ "/" ++ ("backtest" ++ "/" ++ "start") := rfl
  rw [ofPath?, hpath, hw.rooted "api" _ (by decide), hw.divided "api" _ (by decide),
    hw.divided "backtest" _ (by decide), hw.plain "start" (by decide)]
  rfl

/-- The path of a job is that of its route, with the id that the text at the end is read as. -/
theorem ofPath?_job (hw : w.Lawful) {name : String} {route : String → Route}
    (hname : isPlain name = true) (hshort : ofSegments? ["api", "backtest", name] = none)
    (hroute : ∀ id, id ≠ "" → ofSegments? ["api", "backtest", name, id] = some (route id))
    (text : String) :
    ofPath? w ("/api/backtest/" ++ name ++ "/" ++ text) = (w.idOf? text).map route := by
  rw [ofPath?_below hw hname, ofSegments?_job hshort]
  cases hid : w.idOf? text with
  | none => rfl
  | some id => exact hroute id (Framework.idOf?_ne_empty hid)

theorem ofPath?_statusPath (hw : w.Lawful) (id : Json) :
    ofPath? w (statusPath id) = (w.idOf? id.text).map status :=
  ofPath?_job hw (show isPlain "status" = true by decide) rfl (fun _ h => if_neg h) id.text

theorem ofPath?_resultsPath (hw : w.Lawful) (id : Json) :
    ofPath? w (resultsPath id) = (w.idOf? id.text).map results :=
  ofPath?_job hw (show isPlain "results" = true by decide) rfl (fun _ h => if_neg h) id.text

end Route

end StrategyGraph.Server
