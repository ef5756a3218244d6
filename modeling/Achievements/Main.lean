import Achievements.Command

/-!
The command line. It takes a picture of the files that the settings name, lets the command work on
the picture, and writes the output back.
-/
namespace Achievements.Main

def visited (base : Path) (text : String) : List Path :=
  (Path.pieces text.toList).foldl
    (fun seen piece => seen ++ [Path.ofText.step (seen.getLastD base) piece])
    [if text.toList.head? = some '/' then [] else base]

def upward (p : Path) : List Path := (List.range (p.length + 1)).map p.take

def look (t : FileTree) (p : Path) : IO FileTree := do
  let place := (← IO.currentDir) / p.text
  if ← place.isDir then return t.put p .dir
  if ← place.pathExists then return t.put p (.file (← IO.FS.readBinFile place))
  return t

def settingsPaths (base : Path) : List Path :=
  upward base ++ (upward base).map (· ++ [".env"]) ++
    ("config/migrate" :: (Settings.Format.all.flatMap Settings.Format.extensions).map
      ("config/migrate." ++ ·)).flatMap fun name => upward (Path.ofText base name)

def storePaths (base : Path) (c : StoreConfig) : List Path :=
  [c.inputPath, c.outputPath].flatMap fun name =>
    match name with
    | some text => visited base text ++ upward (Path.ofText base text)
    | none => []

def processEnvironment : IO Environment := do
  let bytes ← IO.FS.readBinFile "/proc/self/environ"
  let text := (String.fromUTF8? bytes).getD ""
  return (text.splitOn "\x00").filterMap fun entry =>
    match entry.toList.span (· ≠ '=') with
    | (name, _ :: value) => some (.ofList name, .ofList value)
    | _ => none

/-- Carries out what the command added to the picture, the oldest first. -/
def save (before after : FileTree) : IO Unit := do
  for (p, e) in (after.entries.take (after.entries.length - before.entries.length)).reverse do
    match e with
    | .dir => IO.FS.createDirAll p.text
    | .file bytes => IO.FS.writeBinFile p.text bytes

def run : IO UInt32 := do
  let base := Path.ofText [] (← IO.currentDir).toString
  let env ← processEnvironment
  let early ← (settingsPaths base).foldlM look {}
  let store := match Settings.load early base env with
    | .ok s => s.store
    | .error _ => {}
  let files ← (storePaths base store).foldlM look early
  let outcome := Command.execute files base env
  for line in outcome.log do
    IO.println line
  save files outcome.files
  match outcome.failure with
  | none => return 0
  | some f =>
    IO.eprintln ("Error: " ++ f.message)
    return 1

end Achievements.Main

def main : IO UInt32 := Achievements.Main.run
