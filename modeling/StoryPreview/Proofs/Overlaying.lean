import StoryPreview.Proofs.Arguments.Restored
import StoryPreview.Proofs.OrderedMap
import StoryPreview.Story
/-!
Arguments laid over the declared ones. A story is rendered with the declared JSON and other
arguments laid over it as JSON; what is shown of it beside the frame are the declared arguments,
taken as arguments, with the others merged into them. Both are the same arguments in the same order.
-/
namespace StoryPreview

namespace Json

def Distinct (v : Json) : Prop := ∀ es, v = .object es → (Entries.keys es).Nodup

theorem distinct_of_readValue {depth : Nat} {c c' : Cursor} {v : Json}
    (h : readValue depth c = .ok (v, c')) : v.Distinct := by
  rintro es rfl
  cases depth with
  | zero => cases h
  | succ depth =>
    simp only [readValue, Bind.bind, Except.bind] at h
    repeat' split at h
    -- All other values are no objects.
    all_goals cases h
    exact @Entries.nodup_insertAll Json [] .nil _

theorem distinct_of_parse {s : String} {v : Json} (h : parse s = .ok v) : v.Distinct := by
  simp only [parse, readAll] at h
  split at h
  · cases h
  · rename_i read
    split at h
    · cases h
      exact distinct_of_readValue read
    · cases h

end Json

namespace Argument

theorem ofJson_toJson {a : Argument} (h : a.IsFinite) : ofJson a.toJson = a := by
  cases a with
  | number x =>
    have finite : x.isFinite = true := h
    simp [toJson, Json.ofDouble, finite, ofJson, JsonNumber.toDouble]
  | bool b => rfl
  | text s => rfl
  | null => rfl

end Argument

namespace Arguments

theorem mapValues_toJsonEntries {m : Arguments} (h : ∀ e ∈ m.entries, e.2.IsFinite) :
    Entries.mapValues Argument.ofJson m.toJsonEntries = m.entries := by
  rw [toJsonEntries, Entries.mapValues, List.map_map, List.map_congr_left (g := id), List.map_id]
  intro e he
  exact Prod.ext rfl (Argument.ofJson_toJson (h e he))

theorem ofJson?_object (es : Entries Json) :
    ofJson? (.object es) = some (ofEntries (es.mapValues Argument.ofJson)) := rfl

theorem ofJson?_toJson {m : Arguments} (h : ∀ e ∈ m.entries, e.2.IsFinite) :
    ofJson? m.toJson = some m := by
  rw [toJson, ofJson?_object, mapValues_toJsonEntries h, ofEntries, OrderedMap.ofEntries_entries]

/-- Laying arguments over an object, and merging them into what the object is as arguments, is the
same. -/
theorem ofJson?_insertAll {es : Entries Json} (distinct : es.keys.Nodup) {overlay : Arguments}
    (finite : ∀ e ∈ overlay.entries, e.2.IsFinite) :
    ofJson? (.object (es.insertAll overlay.toJsonEntries)) =
      some ((ofEntries (es.mapValues Argument.ofJson)).mergedWith overlay) := by
  have nodup : (es.mapValues Argument.ofJson).keys.Nodup := by rwa [Entries.keys_mapValues]
  have laid : (es.insertAll overlay.toJsonEntries).mapValues Argument.ofJson =
      (es.mapValues Argument.ofJson).insertAll overlay.entries := by
    rw [Entries.mapValues_insertAll, mapValues_toJsonEntries finite]
  rw [ofJson?_object, laid]
  refine congrArg some (OrderedMap.ext_entries ?_)
  calc (ofEntries ((es.mapValues Argument.ofJson).insertAll overlay.entries)).entries
      = (es.mapValues Argument.ofJson).insertAll overlay.entries :=
        OrderedMap.entries_ofEntries (Entries.nodup_insertAll nodup _)
    _ = (ofEntries (es.mapValues Argument.ofJson)).entries.insertAll overlay.entries := by
        rw [ofEntries, OrderedMap.entries_ofEntries nodup]

end Arguments

/-- JSON gives back arguments whose numbers are finite. Wherever a story can start with its declared
arguments, such arguments laid over the declared JSON are those merged into them, with the same keys
in the same order and the same values. -/
theorem Story.overlay_is_merge {overlay : Arguments}
    (finite : ∀ e ∈ overlay.entries, e.2.IsFinite) :
    Arguments.ofJson? overlay.toJson = some overlay ∧
      ∀ (declared : Json) (renders : Bool) (defaults : Arguments), declared.Distinct →
        Shape.defaultArguments ⟨some declared, renders⟩ = .ok defaults →
        (renderArguments (some declared) (some overlay)).bind Arguments.ofJson? =
          some (defaults.mergedWith overlay) := by
  refine ⟨Arguments.ofJson?_toJson finite, fun declared renders defaults distinct starts => ?_⟩
  cases declared with
  | null =>
    cases starts
    have none : (Entries.keys ([] : Entries Json)).Nodup := .nil
    exact Arguments.ofJson?_insertAll none finite
  | object es =>
    cases starts
    exact Arguments.ofJson?_insertAll (distinct es rfl) finite
  | bool | number | string | array => cases starts

/-- A nested value stays as its text, a replaced one in its place, and a new one comes last. -/
theorem Story.overlay_is_merge_nested :
    (renderArguments (some (.object [("items", .array [.number (.natural 1), .null]),
      ("label", .object [("en", .string "Click")])]))
        (some (.ofEntries [("size", .number (.finite true .zero)), ("label", .text "Go")]))).bind
          Arguments.ofJson? =
      some (.ofEntries [("items", .text "[1,null]"), ("label", .text "Go"),
        ("size", .number (.finite true .zero))]) := by
  have finite : ∀ e ∈ (Arguments.ofEntries [("size", .number (.finite true .zero)),
      ("label", .text "Go")]).entries, e.2.IsFinite := by
    rw [Arguments.ofEntries, OrderedMap.entries_ofEntries (by decide)]
    simp [Argument.IsFinite, Double.isFinite]
  have distinct : Json.Distinct
      (.object [("items", .array [.number (.natural 1), .null]),
          ("label", .object [("en", .string "Click")])]) := by
    rintro es ⟨⟩
    decide
  rw [(overlay_is_merge finite).2 _ true _ distinct rfl]
  decide +kernel

end StoryPreview
