import Crosslink.Path
import Crosslink.Text.Quoted

namespace Crosslink

/-!
What can go wrong while files are read, revised and written back.  Every cause
is a constructor that carries what its wording needs; the wording itself is one
function.
-/

/-- Why a run of bytes is not text in an encoding. -/
structure DecodingFault where
  /-- The encoding's name. -/
  encoding : Text
  /-- The bytes that are refused, the first of them at `start`. -/
  refused : List Nat
  /-- Position of the first refused byte. -/
  start : Nat
  /-- What is wrong with them. -/
  reason : Text
  deriving Repr, DecidableEq

namespace DecodingFault

/-- Two lower-case hexadecimal digits of a byte. -/
def hexByte (byte : Nat) : Text :=
  [Nat.digitChar (byte / 16), Nat.digitChar (byte % 16)]

/-- The wording of a decoding fault: one refused byte is shown, of several only
the positions are. -/
def message (fault : DecodingFault) : Text :=
  let opening : Text := '\x27' :: fault.encoding ++ ("' codec can't decode " : Text)
  match fault.refused with
  | [byte] =>
    opening ++ ("byte 0x" : Text) ++ hexByte byte ++ (" in position " : Text)
      ++ Text.ofNat fault.start ++ (": " : Text) ++ fault.reason
  | _ =>
    opening ++ ("bytes in position " : Text) ++ Text.ofNat fault.start ++ ['-']
      ++ Text.ofNat (fault.start + fault.refused.length - 1) ++ (": " : Text) ++ fault.reason

end DecodingFault

/-- Why a text cannot be written in an encoding. -/
structure EncodingFault where
  /-- The encoding's name. -/
  encoding : Text
  /-- The characters that are refused, the first of them at `start`. -/
  refused : Text
  /-- Position of the first refused character. -/
  start : Nat
  /-- What is wrong with them. -/
  reason : Text
  deriving Repr, DecidableEq

namespace EncodingFault

/-- The wording of an encoding fault: one refused character is shown, of several
only the positions are. -/
def message (fault : EncodingFault) : Text :=
  let opening : Text := '\x27' :: fault.encoding ++ ("' codec can't encode " : Text)
  match fault.refused with
  | [c] =>
    opening ++ ("character '" : Text) ++ Text.escapedCode c ++ ("' in position " : Text)
      ++ Text.ofNat fault.start ++ (": " : Text) ++ fault.reason
  | _ =>
    opening ++ ("characters in position " : Text) ++ Text.ofNat fault.start ++ ['-']
      ++ Text.ofNat (fault.start + fault.refused.length - 1) ++ (": " : Text) ++ fault.reason

end EncodingFault

/-- What stops the work on a file or a directory. -/
inductive Failure where
  /-- No file of that name. -/
  | noFile (path : Text)
  /-- No directory of that name. -/
  | noDirectory (path : Text)
  /-- The path exists, and it is a directory where a file is needed. -/
  | isDirectory (path : Text)
  /-- The path needs a directory where a file is. -/
  | notDirectory (path : Text)
  /-- A directory was to be made where something else is. -/
  | alreadyThere (path : Text)
  /-- The file may not be written. -/
  | denied (path : Text)
  /-- A component of the path is longer than names may be. -/
  | nameTooLong (path : Text)
  /-- The path holds a character that no name may hold. -/
  | nullInPath
  /-- The file's bytes are not text. -/
  | undecodable (fault : DecodingFault)
  /-- The bytes are not text in an encoding that asks for a mark at the start. -/
  | unmarked (reason : Text)
  /-- The text cannot be written in the encoding. -/
  | unencodable (fault : EncodingFault)
  /-- A link without a path was to be resolved. -/
  | emptyLinkPath
  /-- The rule that makes replacements refused the file. -/
  | refused (reason : Text)
  /-- The path begins with a home directory that is not known. -/
  | unknownHome
  /-- Directories nest deeper than a walk goes. -/
  | tooDeep
  deriving Repr, DecidableEq

namespace Failure

def systemMessage (number : Nat) (wording path : Text) : Text :=
  ("[Errno " : Text) ++ Text.ofNat number ++ ("] " : Text) ++ wording ++ (": " : Text)
    ++ Text.quoted path

def message : Failure → Text
  | noFile path => ("File not found: " : Text) ++ path
  | noDirectory path => ("Directory not found: " : Text) ++ path
  | isDirectory path => systemMessage 21 "Is a directory" path
  | notDirectory path => systemMessage 20 "Not a directory" path
  | alreadyThere path => systemMessage 17 "File exists" path
  | denied path => ("Permission denied: " : Text) ++ path
  | nameTooLong path => systemMessage 36 "File name too long" path
  | nullInPath => "embedded null byte"
  | undecodable fault => fault.message
  | unmarked reason => reason
  | unencodable fault => fault.message
  | emptyLinkPath => "linkPath is undefined"
  | refused reason => reason
  | unknownHome => PathError.unknownHome.message
  | tooDeep => "directories nest too deep"

/-- The failure lies in a file, a path or a text, and not in the place where the work is
done. -/
def isOrdinary : Failure → Bool
  | unknownHome => false
  | tooDeep => false
  | _ => true

/-- The failure says that something named does not exist. -/
def isAbsence : Failure → Bool
  | noFile _ => true
  | noDirectory _ => true
  | _ => false

end Failure

end Crosslink
