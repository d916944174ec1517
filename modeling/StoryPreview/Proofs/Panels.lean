import StoryPreview.Panel
import StoryPreview.Proofs.Text.Markup
/-!
No text of a problem changes the markup that shows it. A panel and a document are templates with
holes, each text stands in its own hole and is escaped there, so what opens and closes something is
of the template alone.
-/
namespace StoryPreview

open Text

def fill : List String → List String → String
  | [], _ => ""
  | piece :: pieces, [] => piece ++ fill pieces []
  | piece :: pieces, text :: texts => piece ++ text ++ fill pieces texts

theorem delimiters_append (s t : String) : delimiters (s ++ t) = delimiters s ++ delimiters t := by
  rw [delimiters, String.toList_append, List.filter_append]
  rfl

/-- What opens and closes something in a filled template is of the template. -/
theorem delimiters_fill (e : Escaper) (pieces texts : List String) :
    delimiters (fill pieces (texts.map e.text)) = pieces.flatMap delimiters := by
  induction pieces generalizing texts with
  | nil => rfl
  | cons piece pieces ih =>
    cases texts with
    | nil =>
      have rest := ih []
      rw [List.map_nil] at rest
      rw [List.map_nil, fill, delimiters_append, rest, List.flatMap_cons]
    | cons text texts =>
      rw [List.map_cons, fill, delimiters_append, delimiters_append, e.delimiters_text, ih,
        List.append_nil, List.flatMap_cons]

namespace Panel
variable {p q : Panel}

def texts (p : Panel) : List String :=
  p.title :: p.details :: (p.technical.map technicalText).toList

/-- A panel is a template, one with a technical block or one without, and its texts fill the
holes. -/
theorem exists_template (technical : Bool) : ∃ pieces :
    List String, ∀ (escape : String → String) (p : Panel),
    p.technical.isSome = technical →
      p.htmlWith escape = fill pieces (p.texts.map escape) ∧
      pieces.length = p.texts.length + 1 := by
  obtain ⟨a, b, head⟩ : ∃ a b, ∀ escape t, heading escape t = a ++ escape t ++ b :=
    ⟨_, _, fun _ _ => rfl⟩
  obtain ⟨c, d, para⟩ : ∃ a b, ∀ escape t, paragraph escape t = a ++ escape t ++ b :=
    ⟨_, _, fun _ _ => rfl⟩
  obtain ⟨f, g, block⟩ : ∃ a b, ∀ escape t, technicalBlock escape t =
    a ++ escape (technicalText t) ++ b := ⟨_, _, fun _ _ => rfl⟩
  cases technical with
  | true =>
    refine ⟨[opening ++ a, b ++ c, d ++ f, g ++ closing], fun escape p some => ?_⟩
    obtain ⟨cause, technical⟩ := Option.isSome_iff_exists.1 some
    simp [htmlWith, texts, technical, head, para, block, fill, String.append_assoc]
  | false =>
    refine ⟨[opening ++ a, b ++ c, d ++ closing], fun escape p none => ?_⟩
    have technical : p.technical = .none := by simpa using none
    simp [htmlWith, texts, technical, head, para, fill, String.append_assoc]

theorem exists_documentTemplate : ∃ pieces : List String, pieces.length = 3 ∧
    ∀ (escape : String → String) (message stylesheet : String),
      documentWith escape message stylesheet = fill pieces ([stylesheet, message].map escape) := by
  obtain ⟨a, b, c, doc⟩ : ∃ a b c, ∀ escape m s, documentWith escape m s = a ++ escape s ++
      b ++ escape m ++ c :=
    ⟨_, _, _, fun _ _ _ => rfl⟩
  refine ⟨[a, b, c], rfl, fun escape message stylesheet => ?_⟩
  simp [doc, fill, String.append_assoc]

/-- What opens and closes something in a panel depends on its technical block alone. -/
theorem delimiters_htmlWith (e : Escaper) (same : p.technical.isSome = q.technical.isSome) :
    delimiters (p.htmlWith e.text) = delimiters (q.htmlWith e.text) := by
  obtain ⟨pieces, template⟩ := exists_template p.technical.isSome
  rw [(template e.text p rfl).1, (template e.text q same.symm).1, delimiters_fill, delimiters_fill]

/-- Whatever the texts of a problem are, and however they are escaped, a panel and a document open
and close the same in the same order. Each text has its own hole in the template, and who reads the
entities there gets the text again. -/
theorem markup_fixed (e : Escaper) :
    (∀ p q : Panel, p.technical.isSome = q.technical.isSome →
      delimiters (p.htmlWith e.text) = delimiters (q.htmlWith e.text)) ∧
      (∀ x y : Problem, delimiters ((ofProblem x).htmlWith e.text) =
        delimiters ((ofProblem y).htmlWith e.text)) ∧
      (∀ message stylesheet message' stylesheet',
        delimiters (documentWith e.text message stylesheet) =
          delimiters (documentWith e.text message' stylesheet')) ∧
      (∀ technical, ∃ pieces : List String, ∀ p : Panel, p.technical.isSome = technical →
        p.htmlWith e.text = fill pieces (p.texts.map e.text) ∧ pieces.length = p.texts.length + 1) ∧
      (∃ pieces : List String, pieces.length = 3 ∧ ∀ message stylesheet,
        documentWith e.text message stylesheet = fill pieces ([stylesheet, message].map e.text)) ∧
      (∀ s, unescape (e.text s).toList = s.toList) ∧
      (∀ p : Panel, p.html = p.htmlWith Escaper.standard.text) ∧
      ∀ message stylesheet, document message stylesheet = documentWith Escaper.standard.text
        message stylesheet := by
  obtain ⟨pieces, three, template⟩ := exists_documentTemplate
  refine ⟨fun p q => delimiters_htmlWith e, fun x y => delimiters_htmlWith e rfl,
    fun m s m' s' => ?_, fun technical => ?_, ⟨pieces, three, template e.text⟩, e.unescape_text,
    fun _ => rfl, fun _ _ => rfl⟩
  · rw [template, template, delimiters_fill, delimiters_fill]
  · obtain ⟨pieces, template⟩ := exists_template technical
    exact ⟨pieces, template e.text⟩

end Panel
end StoryPreview
