import CcnxPacket.Config
import CcnxPacket.Proofs.FileSystem.Writable

/-!
# The file that the log goes to

Looking for problems asks whether the directory of the log's file exists. Opening the file asks for
more: the path has to end in a name, no directory may stand there, and what stands where its
directory has to be must be one. Settings without a problem are therefore not always settings that
can be used.
-/

namespace CcnxPacket

/-- A file stands at the path. -/
def FileSystem.IsFile (fs : FileSystem) (path : String) : Prop :=
  ∃ contents, fs.find path = .ok (.file contents)

namespace FileSystem

variable {fs : FileSystem} {path : String}

/-- What a file system contains is a directory or a file. -/
theorem contains_iff : fs.contains path = true ↔ fs.IsDirectory path ∨ fs.IsFile path := by
  rw [contains, IsDirectory, IsFile]
  cases fs.find path with
  | error flaw => simp [Except.isOk, Except.toBool]
  | ok node => cases node <;> simp [Except.isOk, Except.toBool]

/-- What is a directory is no file. -/
theorem not_isFile_of_isDirectory (h : fs.IsDirectory path) : ¬ fs.IsFile path := by
  rintro ⟨contents, hfile⟩
  obtain ⟨entries, hdirectory⟩ := h
  rw [hfile] at hdirectory
  cases hdirectory

end FileSystem

namespace LoggingSection

variable {fs : FileSystem} {logging : LoggingSection} {path : String}

/-- When nothing is wrong with the logging section, nothing is wrong with its file. -/
theorem fileProblems_of_problems (h : logging.problems fs = []) : logging.fileProblems fs = [] := by
  rw [problems, List.append_eq_nil_iff, List.append_eq_nil_iff] at h
  exact h.1.2

theorem directory_of_directoryOf? : (directoryOf? path).getD "." = Path.directory path := rfl

/-- Settings without a problem name something that stands where the directory has to be. -/
theorem contains_directory (hworking : fs.IsDirectory ".") (h : logging.problems fs = [])
    (hfile : logging.logToFile = true) (hpath : logging.logFilePath = some path) :
    fs.IsDirectory (Path.directory path) ∨ fs.IsFile (Path.directory path) := by
  have hproblems := fileProblems_of_problems h
  rw [← directory_of_directoryOf?]
  cases hdirectory : directoryOf? path with
  | none => exact .inl hworking
  | some directory =>
      apply FileSystem.contains_iff.1
      simpa [fileProblems, hfile, hpath, hdirectory] using hproblems

/-- Without problems, a section that logs to a file names one. -/
theorem path_of_problems (h : logging.problems fs = []) (hfile : logging.logToFile = true) :
    ∃ path, logging.logFilePath = some path := by
  have hproblems := fileProblems_of_problems h
  cases hpath : logging.logFilePath with
  | none => simp [fileProblems, hfile, hpath] at hproblems
  | some path => exact ⟨path, rfl⟩

/-- A section that logs to a named file opens its output when that file can be written. -/
theorem openOutput_of_path (hfile : logging.logToFile = true)
    (hpath : logging.logFilePath = some path) :
    logging.openOutput fs = .ok () ↔ fs.checkWritable path = .ok () := by
  simp only [openOutput, hfile, hpath]
  cases fs.checkWritable path with
  | error flaw => simp [Except.mapError]
  | ok done => simp [Except.mapError]

/-- Settings without a problem can be used when the path of the file ends in a name and is not too
long, no directory stands there, and no file where its directory has to be. -/
theorem openOutput_eq_ok_iff (hworking : fs.IsDirectory ".") (h : logging.problems fs = []) :
    logging.openOutput fs = .ok () ↔
      ∀ path, logging.logToFile = true → logging.logFilePath = some path →
        Path.IsUsable path ∧ Path.NamesFile path ∧ ¬ fs.IsDirectory path ∧
          ¬ fs.IsFile (Path.directory path) := by
  cases hfile : logging.logToFile with
  | false => simp [openOutput, hfile]
  | true =>
      obtain ⟨path, hpath⟩ := path_of_problems h hfile
      rw [openOutput_of_path hfile hpath, FileSystem.checkWritable_iff]
      constructor
      · rintro ⟨husable, hnames, hdirectory, hfree⟩ path' - hpath'
        obtain rfl : path = path' := Option.some.inj (hpath.symm.trans hpath')
        exact ⟨husable, hnames, hfree, FileSystem.not_isFile_of_isDirectory hdirectory⟩
      · intro hall
        obtain ⟨husable, hnames, hfree, hnotFile⟩ := hall path rfl hpath
        have hdirectory := (contains_directory hworking h hfile hpath).resolve_right hnotFile
        exact ⟨husable, hnames, hdirectory, hfree⟩

/-- A file system with a directory for logs and a file in it. -/
def logsOnly : FileSystem where
  root := [("srv", .directory [("logs", .directory [("old.log", .file "")])])]
  workingDirectory := ["srv"]

theorem openOutput_intoLogs :
    let logging : LoggingSection := { logToFile := true, logFilePath := some "./logs//new.log" }
    logsOnly.IsDirectory "." ∧ logging.problems logsOnly = [] ∧
      logging.openOutput logsOnly = .ok () ∧
        Path.NamesFile "./logs//new.log" ∧ ¬ logsOnly.IsFile (Path.directory "./logs//new.log") := by
  intro logging
  have hworking : logsOnly.IsDirectory "." := ⟨_, rfl⟩
  have hproblems : logging.problems logsOnly = [] := by decide +kernel
  have hopen : logging.openOutput logsOnly = .ok () := by decide +kernel
  obtain ⟨-, hnames, -, hnotFile⟩ := (openOutput_eq_ok_iff hworking hproblems).1 hopen _ rfl rfl
  exact ⟨hworking, hproblems, hopen, hnames, hnotFile⟩

/-- Nothing is found wrong with the empty path, a path to a directory and a path through a file, and
none of them can be opened. -/
theorem openOutput_unproblematic :
    let logTo (path : String) : LoggingSection := { logToFile := true, logFilePath := some path }
    (logTo "").problems logsOnly = [] ∧
      (logTo "").openOutput logsOnly = .error (.config (.logFile "" .notFound)) ∧
    (logTo "/srv/logs").problems logsOnly = [] ∧
      (logTo "/srv/logs").openOutput logsOnly =
        .error (.config (.logFile "/srv/logs" .isDirectory)) ∧
    (logTo "logs/old.log/new.log").problems logsOnly = [] ∧
      (logTo "logs/old.log/new.log").openOutput logsOnly =
        .error (.config (.logFile "logs/old.log/new.log" .notDirectory)) := by
  decide +kernel

end LoggingSection

end CcnxPacket
