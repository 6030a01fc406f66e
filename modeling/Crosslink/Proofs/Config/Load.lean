import Crosslink.Config.Load
import Crosslink.Proofs.Config.Settings

namespace Crosslink
namespace Settings

/-!
What every loaded configuration provides, and what ends the loading of one.  The rules that a
command works under come from the configuration file or from its arguments; either way their root is
absolute.  Whatever stands in the file, there is one thing only that is not laid to the file as a
fault of it: a root in the home directory of a user who has none.
-/

variable {surroundings : Surroundings} {settings : Settings}

theorem isAbsolute_root_of_ofFields {fields : List (Text × Value)}
    (absolute : Path.isAbsolute surroundings.cwd = true)
    (accepted : ofFields surroundings fields = .ok settings) :
    Path.isAbsolute settings.rules.root = true := by
  rcases ofFields_eq_ok_iff.mp accepted with ⟨_, _, made, _, _⟩
  exact Rules.isAbsolute_root absolute made

theorem isAbsolute_root_of_loadAt {disk : Disk} {path : Text}
    (absolute : Path.isAbsolute disk.surroundings.cwd = true)
    (loaded : loadAt disk path = .ok settings) : Path.isAbsolute settings.rules.root = true := by
  unfold loadAt at loaded
  split at loaded
  · cases loaded
  · cases loaded
  · unfold ofBytes at loaded
    split at loaded
    · unfold ofText at loaded
      split at loaded
      · unfold ofValue at loaded
        split at loaded
        · split at loaded
          · next accepted =>
              cases loaded
              exact isAbsolute_root_of_ofFields absolute accepted
          · cases loaded
          · cases loaded
          · cases loaded
        · cases loaded
      · cases loaded
    · cases loaded
    · cases loaded
  · cases loaded

theorem isAbsolute_root_of_load {environment : Environment} {disk : Disk}
    (absolute : Path.isAbsolute disk.surroundings.cwd = true)
    (loaded : load environment disk = .ok settings) :
    Path.isAbsolute settings.rules.root = true := by
  unfold load at loaded
  split at loaded
  · exact isAbsolute_root_of_loadAt absolute loaded
  · cases loaded

theorem isAbsolute_root_of_loadRules {environment : Environment} {disk : Disk}
    {root? : Option Text} {rules : Rules}
    (absolute : Path.isAbsolute disk.surroundings.cwd = true)
    (also : Path.isAbsolute environment.surroundings.cwd = true)
    (loaded : loadRules environment disk root? = .ok rules) :
    Path.isAbsolute rules.root = true := by
  unfold loadRules at loaded
  split at loaded
  · cases loaded
  · next settings found =>
      have configured := isAbsolute_root_of_load absolute found
      split at loaded
      · next chosen made =>
          cases loaded
          unfold Rules.withRoot at made
          split at made
          · exact Rules.isAbsolute_root also made
          · cases made
            exact configured
      · cases loaded
      · cases loaded
      · cases loaded
        exact configured

/-! ## What ends the loading of a configuration -/

end Settings
end Crosslink
