import MemoryLimit.Text.Quoted

/-!
# Variable bindings

## Main definitions

* `readBinding?` — the name and the value of `NAME=VALUE`.
* `bindingMessage` — the message about a text that is no binding.
-/
namespace MemoryLimit

/-- The name and the value of a binding. The first equals sign separates them, and the name is not
empty. -/
def readBinding? (text : String) : Option (String × String) :=
  let s := text.toList
  match s.dropWhile (· ≠ '=') with
  | [] => none
  | _ :: value =>
    let name := s.takeWhile (· ≠ '=')
    if name.isEmpty then none else some (String.ofList name, String.ofList value)

/-- The message about a text that is no binding. -/
def bindingMessage (text : String) : String :=
  "expected KEY=VALUE, got " ++ Text.quoted text

end MemoryLimit
