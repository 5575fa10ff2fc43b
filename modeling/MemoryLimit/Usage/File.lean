import MemoryLimit.Host.Files
import MemoryLimit.Usage.History

/-!
# The history file

## Main definitions

* `History.load` — the history in a file; an empty one if there is no file.
* `History.save` — replaces the file by the text of a history, as a whole or not at all.
-/
namespace MemoryLimit.History

/-- The history in a file. A file that does not exist holds an empty history. -/
def load (path : Path) : Action Host History := do
  let text ← Action.onFault (some <$> Host.readText path) fun fault =>
    if fault.code = OsFault.noEntry then return none else throw (.os fault)
  match text with
  | none =>
    Host.report (.storeMissing path.text)
    return {}
  | some text =>
    let history ← read text
    Host.report (.storeLoaded path.text history.size)
    return history

/-- Replaces a file by the text of a history. -/
def save (history : History) (path : Path) : Action Host Unit := do
  let text ← history.render
  Host.replaceFile path text
  Host.report (.storeSaved path.text history.size)

end MemoryLimit.History
