import StoryPreview.Preview
/-!
Keeping the arguments of a story in the location of the page. The location is replaced only if its
text changes.
-/
namespace StoryPreview.UrlSync
open Reactive

def follow (arguments : CellId) : Action Unit := do
  let location := (← Action.state).page.location
  let args := (← Action.follow arguments).asArguments
  let url := location.urlWith args
  if url = location.url then
    Action.say .debug .pageUrl "page url already up to date" [("url", url)]
  else
    match ← Action.call (.replaceUrl url) with
    | .ok () => Action.say .debug .pageUrl "page url updated with new args" [("url", url)]
    | .error problem =>
      Action.say .warning .pageUrl "failed to update page url" [("url", url),
        ("error", problem.message)]

def bind (arguments : CellId) : Action EffectId := .spawn (.followUrl arguments) .done

def inspect (x : EffectView) : String := "UrlSyncHandle \x7b effect: " ++ x.inspect ++ " \x7d"

end StoryPreview.UrlSync
