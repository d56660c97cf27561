import FlowStudio.Json.Writer
import FlowStudio.Script
import FlowStudio.Settings.Basic

/-! Where the settings of a user are kept, and how they are read and first written. -/

namespace FlowStudio

inductive SettingsError where
  | noCacheDir
  | io (error : IoError)
  | parse (problem : Json.Problem)
  deriving Repr

def SettingsError.message : SettingsError → String
  | .noCacheDir => "cannot determine settings directory"
  | .io error => "settings io error: " ++ error.message
  | .parse problem => "invalid settings file: " ++ problem.message

namespace Settings

def cacheDir? (cache home : Option String) : Option String :=
  cache <|> home.map (Disk.join · ".cache")

def directory (cache : String) : String := Disk.join cache ".sysdc"

def path (cache : String) : String := Disk.join (directory cache) "setting.json"

def logDirectory (cache : String) : String := Disk.join (directory cache) "logs"

def ofTextOrError (text : String) : Except SettingsError Settings := (ofText text).mapError .parse

def load (path : String) : Script (Except SettingsError Settings) :=
  .readText path fun
    | .error e => .done (.error (.io e))
    | .ok text => .done (ofTextOrError text)

def loadOrDefault : Option String → Script Settings
  | none => .done default
  | some cache => (load (path cache)).bind fun
    | .ok settings => .done settings
    | .error _ => .done default

def ensureDirectory (path : String) : Script (Except IoError Unit) :=
  .contains path fun there => if there then .done (.ok ()) else .makeDirs path .done

def ensure : Option String → Script (Except SettingsError String)
  | none => .done (.error .noCacheDir)
  | some cache => (ensureDirectory (directory cache)).bind fun
    | .error e => .done (.error (.io e))
    | .ok () => .contains (path cache) fun there =>
      if there then .done (.ok (path cache))
      else .writeText (path cache) default.encode.pretty fun
        | .error e => .done (.error (.io e))
        | .ok () => .done (.ok (path cache))

def ensureLogs : Option String → Script (Except IoError String)
  | none => .done (.error .noLogDirectory)
  | some cache => (ensureDirectory (logDirectory cache)).bind fun
    | .error e => .done (.error e)
    | .ok () => .done (.ok (logDirectory cache))

end Settings
end FlowStudio
