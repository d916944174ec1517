import StoryPreview.Address
import StoryPreview.Proofs.Query.Form
import StoryPreview.Proofs.Url.Origin
/-!
An address that was assigned to a frame is the source that the frame then has, whether the frame
reports it as it was assigned or behind the origin. Of other addresses it is the source only if they
have the same path and the same parameters.
-/
namespace StoryPreview.Address

theorem queryText_write (ps : List (String × String)) : Url.QueryText (Form.write ps) where
  visible := by
    intro c hc
    have ascii : ∀ n < 0x21, Form.isWritten (Char.ofNat n) = false ∧ Char.ofNat n ≠ '=' ∧
        Char.ofNat n ≠ '&' := by
      decide
    refine Nat.lt_of_not_le fun hle => ?_
    obtain ⟨hw, he, ha⟩ := ascii c.toNat (Nat.lt_succ_of_le hle)
    rw [Char.ofNat_toNat] at hw he ha
    exact Form.notMem_write hw he ha ps hc
  fragment := Form.notMem_write (by decide) (by decide) (by decide) ps
  colon := Form.notMem_write (by decide) (by decide) (by decide) ps

theorem text_toList (a : Address) :
    a.text.toList = a.path.toList ++ '?' :: Form.write a.params := by
  simp [text, query]

variable {origin base : String}

/-- The URL of an address at an origin is at the addresses with that path and those parameters. -/
theorem isAt_placed (a b : Address) (scheme : List Char) :
    a.isAt (Url.OriginOf.placed scheme b.path.toList (Form.write b.params)) =
      decide (a.path = b.path ∧ a.params.Perm b.params) := by
  have path : String.ofList b.path.toList = a.path ↔ a.path = b.path := by
    rw [String.ofList_toList, eq_comm]
  have params : b.params.isPerm a.params = true ↔ a.params.Perm b.params :=
    List.isPerm_iff.trans List.perm_comm
  rw [Bool.eq_iff_iff, decide_eq_true_iff, ← path, ← params]
  simp [isAt, Url.OriginOf.placed, Form.read_write]

theorem locate_text (a : Address) (ho : Url.WebOrigin origin) (hb : base = "" ∨ base = origin)
    (hp : Url.PlainPath a.path.toList) :
    ∃ scheme, locate (base ++ a.text) origin =
      .ok (Url.OriginOf.placed scheme a.path.toList (Form.write a.params)) := by
  obtain ⟨scheme, authority, h⟩ := ho
  have query := queryText_write a.params
  have ne : base ++ a.text ≠ "" := by
    rw [Ne, ← String.toList_inj, String.toList_append, text_toList]
    simp
  refine ⟨scheme, ?_⟩
  simp only [locate, if_neg ne]
  rcases hb with rfl | rfl
  · rw [String.empty_append, Url.OriginOf.parse_relative hp query a.text_toList, h.parse_eq]
    exact h.join_relative hp query a.text_toList
  · rw [h.parse_absolute hp query a.text_toList]

/-- A source that was made of one address, compared with another. -/
theorem isSource_append_text (a b : Address) (ho : Url.WebOrigin origin)
    (hb : base = "" ∨ base = origin) (hp : Url.PlainPath b.path.toList) :
    a.isSource (base ++ b.text) origin =
      .ok (decide (a.path = b.path ∧ a.params.Perm b.params)) := by
  obtain ⟨scheme, located⟩ := locate_text b ho hb hp
  rw [isSource, located, Except.map, isAt_placed]

/-- A source that was made of an address leads to the address. -/
theorem isSource_text (a : Address) (ho : Url.WebOrigin origin) (hb : base = "" ∨ base = origin)
    (hp : Url.PlainPath a.path.toList) : a.isSource (base ++ a.text) origin = .ok true := by
  rw [isSource_append_text a a ho hb hp]
  simp

/-- A source that was made of an address leads to exactly those addresses that have its path and its
parameters, each of them as often, in any order. It does so alone and behind the origin. -/
theorem isSource_iff_same_parts (a b : Address) (ho : Url.WebOrigin origin)
    (hp : Url.PlainPath b.path.toList) : (a.path = b.path ∧ a.params.Perm b.params →
      a.isSource b.text origin = .ok true ∧ a.isSource (origin ++ b.text) origin = .ok true) ∧
    (¬(a.path = b.path ∧ a.params.Perm b.params) →
      a.isSource b.text origin = .ok false ∧ a.isSource (origin ++ b.text) origin = .ok false) := by
  have alone := isSource_append_text a b ho (.inl rfl) hp
  rw [String.empty_append] at alone
  rw [alone, isSource_append_text a b ho (.inr rfl) hp]
  constructor
  · intro same
    simp [same]
  · intro other
    simp [other]

theorem isSource_in_other_order :
    (⟨"/box/Button", [("size", "2"), ("label", "Öl & more")]⟩ : Address).isSource
      (⟨"/box/Button", [("label", "Öl & more"), ("size", "2")]⟩ : Address).text
        "http://[::1]:8080" = .ok true := by
  have origin : Url.WebOrigin "http://[::1]:8080" :=
    @Url.WebOrigin.of_accepted "http".toList "[::1]:8080".toList _ (by decide) (by decide)
      (by decide) (by decide +kernel)
  have path : Url.PlainPath "/box/Button".toList :=
    ⟨["box".toList, "Button".toList], by decide, by decide, by decide⟩
  have compared := isSource_iff_same_parts ⟨"/box/Button", [("size", "2"), ("label", "Öl & more")]⟩
    ⟨"/box/Button", [("label", "Öl & more"), ("size", "2")]⟩ origin path
  exact (compared.1 ⟨rfl, .swap ..⟩).1

end StoryPreview.Address
