import Crosslink.Text.Blank
import Crosslink.Text.Caseless

namespace Crosslink
namespace Markup

/-!
Labels of reference links.  Two labels are the same if their comparison forms are
equal: blanks trimmed, every run of blanks one space, no regard to case.
-/

/-- Write every run of blanks as one space. -/
def collapseBlanks : Text → Text
  | [] => []
  | c :: rest =>
    if isBlank c then
      match rest with
      | d :: _ => if isBlank d then collapseBlanks rest else ' ' :: collapseBlanks rest
      | [] => [' ']
    else c :: collapseBlanks rest

def labelForm (label : Text) : Text :=
  (collapseBlanks label.trim).caseless

end Markup

end Crosslink
