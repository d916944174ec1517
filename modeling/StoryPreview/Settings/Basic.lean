import StoryPreview.Text.Blank
import StoryPreview.Theme
/-!
Settings of a preview: element names, event and storage names, theme classes and policies. Each has
a default. `issues` lists what is wrong with settings; settings without issues are valid.
-/
namespace StoryPreview

inductive RenderSource where
  | storyDefaults
  /-- The arguments of the frame's configuration, over those of the story. -/
  | configuration
  deriving DecidableEq, Repr, Inhabited

def RenderSource.name : RenderSource → String
  | storyDefaults => "story_defaults"
  | configuration => "configuration"

def RenderSource.names : List String := [storyDefaults.name, configuration.name]

def RenderSource.ofName (name : String) : RenderSource :=
  if name = configuration.name then configuration else storyDefaults

structure Settings where
  frameId : String := "sandbox-iframe"
  /-- The element with the configuration, in the page and in the frame. -/
  configId : String := "sandbox-config"
  /-- The element of the frame into which stories are rendered. -/
  mountId : String := "csr-content-root"
  navigationEvent : String := "mach:contentupdated"
  contentPrefix : String := "/sandbox-content"
  themeStorageKey : String := "globalTheme"
  defaultTheme : Theme := .light
  defaultRenderMode : String := "csr"
  lightThemeClass : String := "light-theme"
  darkThemeClass : String := "dark-theme"
  errorStylesheet : String := "/static/styles/global.css"
  renderSource : RenderSource := .storyDefaults
  deriving DecidableEq, Repr, Inhabited

namespace Settings

inductive Key where
  | frameId
  | configId
  | mountId
  | navigationEvent
  | contentPrefix
  | themeStorageKey
  | defaultTheme
  | defaultRenderMode
  | lightThemeClass
  | darkThemeClass
  | errorStylesheet
  | renderSource
  deriving DecidableEq, Repr

namespace Key

def name : Key → String
  | frameId => "frame_id"
  | configId => "config_id"
  | mountId => "mount_id"
  | navigationEvent => "navigation_event"
  | contentPrefix => "content_prefix"
  | themeStorageKey => "theme_storage_key"
  | defaultTheme => "default_theme"
  | defaultRenderMode => "default_render_mode"
  | lightThemeClass => "light_theme_class"
  | darkThemeClass => "dark_theme_class"
  | errorStylesheet => "error_stylesheet"
  | renderSource => "render_args"

def all : List Key :=
  [frameId, configId, mountId, navigationEvent, contentPrefix, themeStorageKey, defaultTheme,
    defaultRenderMode, lightThemeClass, darkThemeClass, errorStylesheet, renderSource]

def ofName? (name : String) : Option Key := all.find? fun k => k.name = name

end Key

def text (s : Settings) : Key → String
  | .frameId => s.frameId
  | .configId => s.configId
  | .mountId => s.mountId
  | .navigationEvent => s.navigationEvent
  | .contentPrefix => s.contentPrefix
  | .themeStorageKey => s.themeStorageKey
  | .defaultTheme => s.defaultTheme.name
  | .defaultRenderMode => s.defaultRenderMode
  | .lightThemeClass => s.lightThemeClass
  | .darkThemeClass => s.darkThemeClass
  | .errorStylesheet => s.errorStylesheet
  | .renderSource => s.renderSource.name

def withText (s : Settings) (k : Key) (text : String) : Settings :=
  match k with
  | .frameId => { s with frameId := text }
  | .configId => { s with configId := text }
  | .mountId => { s with mountId := text }
  | .navigationEvent => { s with navigationEvent := text }
  | .contentPrefix => { s with contentPrefix := text }
  | .themeStorageKey => { s with themeStorageKey := text }
  | .defaultTheme => { s with defaultTheme := .ofName text }
  | .defaultRenderMode => { s with defaultRenderMode := text }
  | .lightThemeClass => { s with lightThemeClass := text }
  | .darkThemeClass => { s with darkThemeClass := text }
  | .errorStylesheet => { s with errorStylesheet := text }
  | .renderSource => { s with renderSource := .ofName text }

def Key.variants? : Key → Option (List String)
  | .defaultTheme => some Theme.names
  | .renderSource => some RenderSource.names
  | _ => none

def themeClass (s : Settings) : Theme → String
  | .light => s.lightThemeClass
  | .dark => s.darkThemeClass

inductive Issue where
  | empty (key : Key)
  | blank (key : Key) (value : String)
  | relativePrefix (value : String)
  | slashEnded (value : String)
  | sameClasses
  deriving DecidableEq, Repr

def Issue.message : Issue → String
  | empty key => key.name ++ " must not be empty"
  | blank key value => key.name ++ " must not contain whitespace, got " ++ Text.quote value
  | relativePrefix value => "content_prefix must start with '/', got " ++ Text.quote value
  | slashEnded value => "content_prefix must not end with '/', got " ++ Text.quote value
  | sameClasses => "light_theme_class and dark_theme_class must differ"

def words : List Key :=
  [.frameId, .configId, .mountId, .navigationEvent, .themeStorageKey, .defaultRenderMode,
    .lightThemeClass, .darkThemeClass]

def wordIssue? (key : Key) (value : String) : Option Issue :=
  if Text.trim value.toList = [] then some (.empty key)
  else if value.toList.any Text.isBlank then some (.blank key value)
  else none

/-- The prefix starts with a slash, and ends with one only if that is all of it. -/
def prefixIssue? (value : String) : Option Issue :=
  match value.toList with
  | '/' :: rest => if rest.getLast? = some '/' then some (.slashEnded value) else none
  | _ => some (.relativePrefix value)

def issues (s : Settings) : List Issue :=
  words.filterMap (fun k => wordIssue? k (s.text k)) ++ (prefixIssue? s.contentPrefix).toList ++
    (if s.lightThemeClass = s.darkThemeClass then [.sameClasses] else [])

end Settings
end StoryPreview
