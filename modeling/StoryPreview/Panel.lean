import StoryPreview.Problem
import StoryPreview.Text.Markup
/-!
Error panels: the markup that a frame shows in place of a story, and the document that the page
writes into the frame when it cannot set up the preview. All texts of a problem are escaped.
-/
namespace StoryPreview

inductive PanelKind where
  | initialization
  | critical
  | configuration
  | storyNotFound
  | storyFormat
  | moduleLoad
  | render
  deriving DecidableEq, Repr

def PanelKind.title : PanelKind → String
  | initialization => "Initialization Error"
  | critical => "Initialization Critical Error"
  | configuration => "Configuration Error"
  | storyNotFound => "Story Not Found"
  | storyFormat => "Invalid Story Format"
  | moduleLoad => "Module Load Error"
  | render => "Client-Side Rendering Error"

def Problem.panelKind : Problem → PanelKind
  | moduleUnavailable .. => .moduleLoad
  | missingExport .. | argumentsNotObject .. => .storyNotFound
  | notRenderable .. => .storyFormat
  | badConfiguration .. => .configuration
  | mountMissing _ | frameMissing _ => .initialization
  | badSetup .. | refused _ => .critical
  | renderFailed .. => .render

structure Panel where
  kind : PanelKind
  details : String
  technical : Option Cause
  deriving DecidableEq, Repr

namespace Panel

def ofProblem (p : Problem) : Panel where
  kind := p.panelKind
  details := match p with
    | .moduleUnavailable path _ =>
      "Could not load the story module '" ++ path ++ "'. Check the file path and network requests."
    | p => p.message
  technical := some p.cause

def title (p : Panel) : String := p.kind.title

def technicalText (c : Cause) : String :=
  "Error: " ++ c.message ++ match c.stack with
    | some stack => "\nStack: " ++ stack
    | none => ""

def opening : String :=
  "<div class=\"sandbox-error-panel\" role=\"alert\" style=\"padding: var(--space-5, 20px); background-color: var(--sage-1, #f9fafb); color: var(--sage-12, #111827); font-family: var(--default-font-family, sans-serif); border: 1px solid var(--red-7, #e5484d); border-radius: var(--radius-2, 4px); margin: var(--space-5, 20px) 0; height: 100%; box-sizing: border-box;\">\n"

/-! The parts of the markup, with the way that texts are escaped. -/

def heading (escape : String → String) (title : String) : String :=
  "  <h1 style=\"font-size: var(--font-size-5, 1.5rem); color: var(--red-11, #c53944); margin-top: 0;\">CSR Error: " ++
    escape title ++ "</h1>\n"

def paragraph (escape : String → String) (details : String) : String :=
  "  <p style=\"word-wrap: break-word;\">" ++ escape details ++ "</p>\n"

def technicalBlock (escape : String → String) (c : Cause) : String :=
  "  <details>\n    <summary>Technical details</summary>\n" ++
    "    <pre style=\"background-color: var(--sage-3, #e4e4e7); color: var(--red-11, #c53944); padding: var(--space-3, 0.75rem); overflow-x: auto; white-space: pre-wrap; word-break: break-all;\">" ++
    escape (technicalText c) ++ "</pre>\n  </details>\n"

def closing : String :=
  "  <p style=\"font-size: var(--font-size-1, 0.875rem); color: var(--sage-11, #52525b);\">Please check the component's story definition, the story key, and the browser console for more technical details.</p>\n</div>\n"

def htmlWith (escape : String → String) (p : Panel) : String :=
  opening ++ heading escape p.title ++ paragraph escape p.details ++
    (match p.technical with
      | some c => technicalBlock escape c
      | none => "") ++ closing

def html (p : Panel) : String := p.htmlWith Text.escapeMarkup

def documentWith (escape : String → String) (message stylesheet : String) : String :=
  "<!DOCTYPE html><html><head><title>Error</title><link rel=\"stylesheet\" href=\"" ++
    escape stylesheet ++
    "\"/><style>body\x7bpadding:var(--space-5);\x7d</style></head><body><p><em>Parent App Error: " ++
    escape message ++ ". Check console for details.</em></p></body></html>"

def document (message stylesheet : String) : String :=
  documentWith Text.escapeMarkup message stylesheet

end Panel
end StoryPreview
