import StoryPreview.Arguments.Basic
import StoryPreview.Proofs.Json.Values
import StoryPreview.Proofs.OrderedMap
/-!
Objects that have been written as JSON. Their entries are read in order, each behind a comma apart
from the first one; if one of them cannot be read, the object cannot.
-/
namespace StoryPreview.Json
open Cursor
variable {α β : Type} {c : Cursor} {rest : List Char}

def entriesText (first : Bool) (es : List (String × Json)) : List Char :=
  (if first || es.isEmpty then [] else [',']) ++ writeEntries es

theorem writeEntries_cons (k : String) (v : Json) (es : List (String × Json)) :
    writeEntries ((k, v) :: es) = writeString k ++ ':' :: (v.write ++ entriesText false es) := by
  cases es with
  | nil => simp [writeEntries, entriesText]
  | cons e es => simp [writeEntries, entriesText]

theorem length_le_writeEntries (es : List (String × Json)) :
    es.length ≤ (writeEntries es).length := by
  induction es with
  | nil => exact Nat.zero_le _
  | cons e es ih =>
    have more : (writeEntries es).length ≤ (entriesText false es).length := by simp [entriesText]
    rw [writeEntries_cons, List.length_cons]
    simp only [List.length_append, List.length_cons]
    omega

theorem breaks_entriesText (es : List (String × Json)) (rest : List Char) :
    Breaks (entriesText false es ++ '}' :: rest) := by
  cases es <;> simp [entriesText, writeEntries, Breaks] <;> decide

theorem nextKey_more {first : Bool} {k : String} {v : Json} {es : List (String × Json)}
    (hc : c.rest = entriesText first ((k, v) :: es) ++ rest) :
    ∃ c', c.nextKey first = .ok (true, c') ∧ c'.rest = writeEntries ((k, v) :: es) ++ rest := by
  have key : ∃ more, writeEntries ((k, v) :: es) ++ rest = '"' :: more := by
    rw [writeEntries_cons, writeString]
    exact ⟨_, rfl⟩
  obtain ⟨more, key⟩ := key
  cases first with
  | true =>
    have text : c.rest = writeEntries ((k, v) :: es) ++ rest := by simpa [entriesText] using hc
    have front := text.trans key
    have same : c.skipBlanks = c := skipBlanks_eq (by simp [front, isBlank])
    refine ⟨c, ?_, text⟩
    simp [nextKey, same, front]
  | false =>
    have text : c.rest = ',' :: (writeEntries ((k, v) :: es) ++ rest) := by
      simpa [entriesText] using hc
    have front := (tail_rest text).trans key
    have same : c.skipBlanks = c := skipBlanks_eq (by simp [text, isBlank])
    have same' : c.tail.skipBlanks = c.tail := skipBlanks_eq (by simp [front, isBlank])
    refine ⟨c.tail, ?_, tail_rest text⟩
    simp [nextKey, same, text, same', front]

theorem colon_eq (hc : c.rest = ':' :: rest) : c.colon = .ok c.tail := by
  have same : c.skipBlanks = c := skipBlanks_eq (by simp [hc, isBlank])
  simp only [colon, same, hc]

theorem nextKey_done {first : Bool} (hc : c.rest = '}' :: rest) :
    c.nextKey first = .ok (false, c) := by
  have same : c.skipBlanks = c := skipBlanks_eq (by simp [hc, isBlank])
  simp only [nextKey, same, hc, if_true]

theorem closeObject_eq (hc : c.rest = '}' :: rest) : c.closeObject = .ok c.tail := by
  have same : c.skipBlanks = c := skipBlanks_eq (by simp [hc, isBlank])
  simp only [closeObject, same, hc]

def restoredEntries (found : β → Option α) (es : List (String × β)) : Option (List (String × α)) :=
  es.mapM fun e => (found e.2).map fun a => (e.1, a)

theorem restoredEntries_cons (found : β → Option α) (k : String) (b : β) (es : List (String × β)) :
    restoredEntries found ((k, b) :: es) =
      (found b).bind fun a => (restoredEntries found es).map fun as => (k, a) :: as := by
  rw [restoredEntries, List.mapM_cons]
  cases found b with
  | none => rfl
  | some a => cases h : restoredEntries found es <;> simp [restoredEntries] at h <;> simp [h]

theorem restoredEntries_self {found : α → Option α} {es : List (String × α)}
    (h : ∀ e ∈ es, found e.2 = some e.2) : restoredEntries found es = some es := by
  induction es with
  | nil => rfl
  | cons e es ih =>
    rw [restoredEntries_cons, h e List.mem_cons_self,
      ih fun e he => h e (List.mem_cons_of_mem _ he)]
    rfl

/-- Entries are read up to the closing bracket, one after the other. -/
theorem readEntries_written {item : Reader α} {json : β → Json} {found : β → Option α}
    {es : List (String × β)} (h : ∀ e ∈ es, Gives item (json e.2).write (found e.2)) {fuel : Nat}
    (enough : es.length < fuel) {first : Bool}
    (hc : c.rest = entriesText first (es.map fun e => (e.1, json e.2)) ++ '}' :: rest) :
    Outcome (readEntries item fuel first c) ('}' :: rest) (restoredEntries found es) := by
  induction es generalizing c fuel first with
  | nil =>
    obtain ⟨fuel, rfl⟩ := Nat.exists_eq_succ_of_ne_zero (Nat.ne_of_gt enough)
    have front : c.rest = '}' :: rest := by simpa [entriesText, writeEntries] using hc
    exact ⟨c, by simp [readEntries, nextKey_done front, Bind.bind, Except.bind], front⟩
  | cons e es ih =>
    obtain ⟨k, b⟩ := e
    obtain ⟨fuel, rfl⟩ := Nat.exists_eq_succ_of_ne_zero (Nat.ne_of_gt (Nat.zero_lt_of_lt enough))
    rw [List.map_cons] at hc
    obtain ⟨c₁, key, at_key⟩ := nextKey_more hc
    -- What stands behind the value is a comma or the closing bracket, so a number ends there.
    generalize others : entriesText false (es.map fun e => (e.1, json e.2)) ++ '}' :: rest = left
    have mark : c₁.rest = '"' :: (k.toList.flatMap escapeChar ++ '"' :: ':' ::
        ((json b).write ++ left)) := by
      simpa [writeEntries_cons, writeString, ← others] using at_key
    obtain ⟨c₂, named, at_colon⟩ := readString_written (tail_rest mark)
    have at_value : c₂.tail.rest = (json b).write ++ left := tail_rest at_colon
    have value :=
      h (k, b) List.mem_cons_self c₂.tail left at_value (others ▸ breaks_entriesText _ rest)
    have step : readEntries item (fuel + 1) first c = (item c₂.tail).bind fun r =>
        onto (fun as => (k, r.1) :: as) (readEntries item fuel false r.2) := by
      simp [readEntries, key, named, colon_eq at_colon, onto, Bind.bind, Except.bind]
    rw [step, restoredEntries_cons]
    cases found : found b with
    | none =>
      rw [found] at value
      obtain ⟨stop, failed⟩ := value
      exact ⟨stop, by rw [failed]; rfl⟩
    | some a =>
      rw [found] at value
      obtain ⟨c₃, read, behind⟩ := value
      rw [read]
      exact (ih (fun e he => h e (List.mem_cons_of_mem _ he)) (Nat.lt_of_succ_lt_succ enough)
        (behind.trans others.symm)).map fun as => (k, a) :: as

theorem gives_readMap {item : Nat → Reader α} {json : β → Json} {found : β → Option α}
    {es : List (String × β)} {depth : Nat} (deep : 1 < depth)
    (h : ∀ e ∈ es, Gives (item (depth - 1)) (json e.2).write (found e.2)) :
    Gives (readMap item depth) (Json.write (.object (es.map fun e => (e.1, json e.2))))
      (restoredEntries found es) := by
  intro c rest hc hr
  have front : c.rest = '{' :: (writeEntries (es.map fun e => (e.1, json e.2)) ++ '}' :: rest) := by
    simpa [Json.write] using hc
  have await : c.awaitValue = .ok ('{', c) := awaitValue_eq front (by decide)
  have enough : es.length < c.rest.length + 1 := by
    have few := length_le_writeEntries (es.map fun e => (e.1, json e.2))
    rw [List.length_map] at few
    rw [front, List.length_cons, List.length_append]
    omega
  have entries : Outcome (readEntries (item (depth - 1)) (c.rest.length + 1) true c.tail)
      ('}' :: rest) (restoredEntries found es) := readEntries_written h enough (tail_rest front)
  have map : readMap item depth c = inObject
      (readEntries (item (depth - 1)) (c.rest.length + 1) true c.tail) := by
    simp [readMap, await, Nat.not_le_of_lt deep, Bind.bind, Except.bind]
  rw [map]
  cases all : restoredEntries found es with
  | none =>
    rw [all] at entries
    obtain ⟨stop, failed⟩ := entries
    exact ⟨_, by rw [failed]; rfl⟩
  | some as =>
    rw [all] at entries
    obtain ⟨c', read, left⟩ := entries
    refine ⟨c'.tail, ?_, tail_rest left⟩
    rw [read]
    simp [inObject, closeObject_eq left, Except.map]

end StoryPreview.Json
