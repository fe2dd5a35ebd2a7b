import PeerGateway.Settings.Layer
import PeerGateway.Files

/-!
# The settings file

Where it lies (`Settings.path`), what it says (`Settings.readFile`), the settings that
follow from it and the environment (`Settings.load`), and writing it with the defaults
where there is none (`Settings.ensureFile`).
-/

namespace PeerGateway

namespace Settings

/-- Why the settings could not be had. -/
inductive Failure
  | read (path : String) (fault : FileFault)
  | parse (path : String)
  | write (path : String) (fault : FileFault)
  deriving DecidableEq, Repr

/-- The failure in words. -/
def Failure.text : Failure → String
  | .read path fault => "failed to read " ++ path ++ ": " ++ fault.text
  | .parse path => "failed to parse " ++ path
  | .write path fault => "failed to write " ++ path ++ ": " ++ fault.text

/-- The path of the file: a variable of its own, or else below the folder for settings,
which is in the home folder unless a variable says another. -/
def path (env : Environment) : String :=
  match env.text? "GATEMESH_CONFIG" with
  | some p => p
  | none =>
    let home := (env.text? "HOME").getD "/tmp"
    let base := (env.text? "XDG_CONFIG_HOME").getD (joinPath home ".config")
    joinPath (joinPath base "gatemesh") "config.toml"

/-- The layer that a file gives. -/
def readFile (files : Files) (path : String) : Except Failure Layer :=
  match files.read path with
  | .error fault => .error (.read path fault)
  | .ok content =>
    match Bytes.text? content with
    | none => .error (.read path .notText)
    | some text =>
      match (Toml.parse? text).bind Layer.ofToml? with
      | none => .error (.parse path)
      | some layer => .ok layer

/-- The settings of a file that has to be there, without the environment. -/
def ofFile (files : Files) (path : String) : Except Failure Settings :=
  (readFile files path).map fun layer => layer.onto default

/-- The settings of the file, if there is one, and of the environment. -/
def load (env : Environment) (files : Files) : Except Failure Settings :=
  let path := path env
  let layer := if files.has path then readFile files path else .ok {}
  layer.map fun layer => resolve layer env.text?

/-- Makes sure that there is a file: writes the defaults where nothing is. -/
def ensureFile (files : Files) (path : String) : Except Failure Files :=
  if files.has path then .ok files
  else
    let failed : Except FileFault Files → Except Failure Files
      | .ok files => .ok files
      | .error fault => .error (.write path fault)
    match failed (files.makeFolders [] (Files.names path).dropLast) with
    | .error e => .error e
    | .ok files => failed (files.write path (Bytes.ofString default.toml))

end Settings

end PeerGateway
