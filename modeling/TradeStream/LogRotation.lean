import TradeStream.Glob
import TradeStream.InsertionDict
import TradeStream.IsoText

/-! `LogRotator` of the janitor agent, in a file system that other programs write as well. -/
namespace TradeStream.LogRotation
open TradeStream.Glob TradeStream.InsertionDict TradeStream.IsoText

structure LogRotationConfig where
  logDirs : List String
  patterns : List String
  maxSizeBytes : ℤ
  maxAgeDays : ℤ
  maxRotatedFiles : ℤ
  compress : Bool
  archiveDir : Option String

/-- The defaults. -/
def defaultConfig : LogRotationConfig where
  logDirs := ["/var/log/tradestream", "/var/log/tradestream/services"]
  patterns := ["*.log", "*.json.log"]
  maxSizeBytes := 100 * 1024 * 1024
  maxAgeDays := 30
  maxRotatedFiles := 5
  compress := true
  archiveDir := none

/-- A file's directory, each in one spelling, and its name there. -/
structure Path where
  dir : String
  name : String
  deriving DecidableEq

def Path.text (p : Path) : List Char := p.dir.toList ++ '/' :: p.name.toList

/-- A call of `rotate_file`: its log, and the clock that it read. -/
structure Rotation where
  log : Path
  time : IsoInstant

structure File where
  content : List UInt8
  mtime : ℚ
  /-- The call that made the file, if any did. -/
  madeBy : Option Rotation

abbrev Files := List (Path × File)

/-- What the host of the files decides: which directories there are, those that a text with
special characters finds, and what `gzip` makes of a content. -/
structure Host where
  isDir : String → Bool
  expand : String → List String
  gzip : List UInt8 → List UInt8

/-! ### Finding files -/

/-- `os.path.split`. -/
def splitPath (path : List Char) : List Char × List Char :=
  let head := (path.reverse.dropWhile (· ≠ '/')).reverse
  let stripped := (head.reverse.dropWhile (· = '/')).reverse
  (if stripped = [] then head else stripped, (path.reverse.takeWhile (· ≠ '/')).reverse)

/-- `os.path.join`, with nothing to join left out. -/
def joinDir (dir : String) (sub : List Char) : String :=
  if sub = [] then dir
  else if sub.head? = some '/' then String.ofList sub
  else dir ++ "/" ++ String.ofList sub

section
variable (host : Host)

/-- `glob.glob`, for the directory and the last part of the pattern. -/
def globFiles (files : Files) (dir : String) (last : List Char) : List Path :=
  let dirs := if hasMagic dir.toList then (host.expand dir).dedup else [dir]
  dirs.flatMap fun d =>
    (files.filter fun e => e.1.dir = d ∧ matchesName last e.1.name.toList).map Prod.fst

variable (config : LogRotationConfig)

def findLogFiles (files : Files) : List Path :=
  let matched := (config.logDirs.filter host.isDir).flatMap fun logDir =>
    config.patterns.flatMap fun pattern =>
      let (sub, last) := splitPath pattern.toList
      globFiles host files (joinDir logDir sub) last
  matched.dedup.insertionSort fun p q => p.text ≤ q.text

def shouldRotate (files : Files) (log : Path) : Bool :=
  match files.lookup log with
  | none => false
  | some f => config.maxSizeBytes ≤ f.content.length

/-! ### Rotation -/

/-- `strftime("%Y%m%d%H%M%S")`. -/
def stamp (now : IsoInstant) : List Char :=
  padded 4 now.year ++ (padded 2 now.month ++ (padded 2 now.day ++
    (padded 2 now.hour ++ (padded 2 now.minute ++ padded 2 now.second))))

/-- The archive, if there is one, or the log's own directory. -/
def destination (log : Path) : String :=
  match config.archiveDir with
  | none => log.dir
  | some dir => if dir = "" then log.dir else dir

/-- `f"{base_name}.{timestamp}"`, and what compression puts after it. -/
def rotatedName (name : String) (now : IsoInstant) (suffix : String) : String :=
  name ++ "." ++ String.ofList (stamp now) ++ suffix

def rotatedPath (log : Path) (now : IsoInstant) (suffix : String) : Path :=
  ⟨destination config log, rotatedName log.name now suffix⟩

def remove (files : Files) (p : Path) : Files := files.filter fun e => e.1 ≠ p

def rotateFile (now : IsoInstant) (files : Files) (log : Path) : Files :=
  match files.lookup log with
  | none => files
  | some f =>
    let made : Option Rotation := some ⟨log, now⟩
    let rotated := rotatedPath config log now ""
    let moved := setItem (remove files log) rotated ⟨f.content, f.mtime, made⟩
    let emptied := setItem moved log ⟨[], now.wallTime, none⟩
    if config.compress then
      remove (setItem emptied (rotatedPath config log now ".gz")
        ⟨host.gzip f.content, now.wallTime, made⟩) rotated
    else emptied

/-! ### Cleanup -/

/-- `l[n:]`, counted from the end for a negative `n`. -/
def sliceFrom {α : Type*} (n : ℤ) (l : List α) : List α :=
  l.drop (if 0 ≤ n then n else l.length + n).toNat

/-- `rotated_files`, the greatest name first. -/
def rotatedFiles (files : Files) (log : Path) : List Path :=
  (globFiles host files (destination config log) (log.name ++ ".*").toList).insertionSort
    fun p q => q.text ≤ p.text

/-- The files beyond the retention limit. -/
def excessFiles (files : Files) (log : Path) : List Path :=
  sliceFrom config.maxRotatedFiles (rotatedFiles host config files log)

def cleanupOldRotatedFiles (files : Files) (log : Path) : Files :=
  (excessFiles host config files log).foldl remove files

/-- What comes after the last place of a text in another one, if it has a place there. -/
def afterLast? (sep : List Char) : List Char → Option (List Char)
  | [] => none
  | c :: cs =>
    match afterLast? sep cs with
    | some rest => some rest
    | none => if sep <+: c :: cs then some ((c :: cs).drop sep.length) else none

/-- `entry.endswith(".gz") or "." in entry.rsplit(".log", 1)[-1]`. -/
def looksRotated (entry : List Char) : Bool :=
  ".gz".toList <:+ entry ∨ '.' ∈ (afterLast? ".log".toList entry).getD entry

def isAged (now : IsoInstant) (f : File) : Bool :=
  ((config.maxAgeDays * 86400 : ℤ) : ℚ) < now.wallTime - f.mtime

/-- The files that are deleted for their age, of one directory. -/
def agedFiles (now : IsoInstant) (files : Files) (logDir : String) : List Path :=
  (files.filter fun e =>
    e.1.dir = logDir ∧ looksRotated e.1.name.toList ∧ isAged config now e.2).map Prod.fst

def cleanupAgedFiles (now : IsoInstant) (files : Files) : Files :=
  (config.logDirs.filter host.isDir).foldl
    (fun files logDir => (agedFiles config now files logDir).foldl remove files) files

/-! ### Runs -/

/-- The loop of `run` over the logs that it found, with the clock that each rotation reads,
and the cleanup after it with the last one. -/
def runLogs (clock : Path → IsoInstant) (last : IsoInstant) : List Path → Files → Files
  | [], files => cleanupAgedFiles host config last files
  | log :: logs, files =>
    runLogs clock last logs <| if shouldRotate config files log then
      cleanupOldRotatedFiles host config (rotateFile host config (clock log) files log) log
    else files

def run (clock : Path → IsoInstant) (last : IsoInstant) (files : Files) : Files :=
  runLogs host config clock last (findLogFiles host config files) files

end

end TradeStream.LogRotation
