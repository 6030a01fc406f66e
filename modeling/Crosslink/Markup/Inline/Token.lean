import Crosslink.Text.Basic

namespace Crosslink
namespace Markup

/-!
What inline text consists of once it is read: a sequence of events, some of which
open or close a range, and the same sequence with the level at which each event
stands.  The text of a link is what stands directly inside it.
-/

/-- What is known of a link where it opens. -/
structure Anchor where
  /-- Where it leads; nothing for a reference to a definition. -/
  target? : Option Text
  /-- Position of its first character in the run of inline text. -/
  position : Nat
  /-- Position of its destination there. -/
  destination : Nat
  deriving Repr, DecidableEq

/-- A piece of inline text. -/
inductive Event where
  | text (content : Text)
  | softBreak
  /-- Code, raw HTML, an image or a hard line break. -/
  | object
  | linkOpen (anchor : Anchor)
  | linkClose
  | emphasisOpen
  | emphasisClose
  deriving Repr, DecidableEq

/-- An event and the number of ranges that it stands in. -/
structure Token where
  /-- The number of ranges around the event; a range's own ends stand outside of it. -/
  level : Nat
  event : Event
  deriving Repr, DecidableEq

namespace Event

def opens : Event → Bool
  | linkOpen _ => true
  | emphasisOpen => true
  | _ => false

def closes : Event → Bool
  | linkClose => true
  | emphasisClose => true
  | _ => false

end Event

/-- Give each event of a sequence its level, starting from one. -/
def leveled : Nat → List Event → List Token
  | _, [] => []
  | level, event :: rest =>
    let own := if event.closes then level - 1 else level
    { level := own, event } :: leveled (if event.opens then own + 1 else own) rest

/-- The texts and soft line breaks at a level, up to the end of the link around it. -/
def directText (level : Nat) : List Token → Text
  | [] => []
  | token :: rest =>
    if token.event = .linkClose && token.level + 1 = level then []
    else if token.level = level then
      match token.event with
      | .text content => content ++ directText level rest
      | .softBreak => '\n' :: directText level rest
      | _ => directText level rest
    else directText level rest

/-- The text of a link: what stands directly inside it.  The tokens follow the one that
opens the link at a level. -/
def linkText (level : Nat) (behind : List Token) : Text :=
  directText (level + 1) behind

end Markup

end Crosslink
