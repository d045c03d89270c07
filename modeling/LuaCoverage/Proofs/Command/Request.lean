import LuaCoverage.Command.Request
import LuaCoverage.Proofs.FileSystem.Writing

/-!
# What a request writes and what it answers

A request fails when its profile cannot be read or loaded and when its tracefile cannot be written,
and then the disk stays as it was.  Otherwise the report is that of the disk before the request.
What is written does not depend on how the report is printed, nor the answer on what is written.
-/

namespace LuaCoverage

theorem Outcome.text_functions (options : TextOptions) (functions : Bool) (outcome : Outcome) :
    outcome.text { options with functions } = outcome.text options := by
  cases outcome <;> rfl

theorem Report.text_functions (options : TextOptions) (functions : Bool) (report : Report) :
    report.text { options with functions } = report.text options := by
  have blocks : Outcome.text { options with functions } = Outcome.text options := by
    funext outcome
    exact outcome.text_functions options functions
  rw [text, text, blocks]

theorem Disk.run_overwrite (disk : Disk) (path : Path) (content : List UInt8) :
    (overwrite path content).run disk =
      match disk.write path content with
      | .error cause => (.error cause, disk)
      | .ok written => (.ok (), written) := by
  change Id.run ((match disk.write path content with
    | .error cause => (pure (.error cause) : StateM Disk (Except IoError Unit))
    | .ok written => do set written; return .ok ()) disk) = _
  cases disk.write path content <;> rfl

theorem Plan.run_carryOut_write (disk : Disk) (target : Path) (content : List UInt8)
    (output : String) :
    ((write target content output).carryOut Disk.overwrite).run disk =
      match disk.write target content with
      | .error cause => (.error (.unwritableTracefile target cause), disk)
      | .ok written => (.ok output, written) := by
  rw [carryOut, StateT.run_bind, Disk.run_overwrite]
  cases disk.write target content <;> rfl

namespace Request

/-- What a request answers and the disk that it leaves. -/
def effect (toolkit : Lua.Toolkit) (disk : Disk) (request : Request) :
    Except Failure String × Disk :=
  ((request.run toolkit disk).1.answer, (request.run toolkit disk).2)

variable {toolkit : Lua.Toolkit}

section Prepared

variable {system : FileSystem} {request : Request}

theorem prepare_unreadable {cause : IoError}
    (unreadable : system.read request.input = .error cause) :
    (request.prepare toolkit system).1 = .error (.unreadableProfile request.input cause) := by
  rw [prepare, unreadable]

variable (toolkit system request) in
theorem prepare_read {octets : List UInt8} (read : system.read request.input = .ok octets) :
    (request.prepare toolkit system).1 =
      match (Coverage.ofProfile system request.root octets).1 with
      | .error cause => .error (.unloadableProfile request.input cause)
      | .ok coverage => .ok (coverage.report system toolkit.grammar request.filter) := by
  rw [prepare, read]
  dsimp only
  rcases Coverage.ofProfile system request.root octets with ⟨_ | _, _⟩ <;> rfl

theorem plan_of_prepare_error {failure : Failure}
    (failed : (request.prepare toolkit system).1 = .error failure) :
    (request.plan toolkit system).1 = .fail failure := by
  rcases preparation : request.prepare toolkit system with ⟨result, events⟩
  rw [preparation] at failed
  cases failed
  rw [plan, preparation]

theorem plan_of_prepare_ok {report : Report}
    (prepared : (request.prepare toolkit system).1 = .ok report) :
    (request.plan toolkit system).1 =
      match request.tracefile with
      | none => .print (request.print report)
      | some target => .write target (Utf8.encode report.tracefile) (request.print report) := by
  rcases preparation : request.prepare toolkit system with ⟨result, events⟩
  rw [preparation] at prepared
  cases prepared
  rw [plan, preparation]
  cases request.tracefile <;> rfl

end Prepared

section Effect

variable {disk : Disk} {request : Request}

/-- A request is fulfilled by carrying out its plan. -/
theorem effect_eq (toolkit : Lua.Toolkit) (disk : Disk) (request : Request) :
    request.effect toolkit disk =
      ((request.plan toolkit disk.fileSystem).1.carryOut Disk.overwrite).run disk := rfl

theorem effect_of_prepare_error {failure : Failure}
    (failed : (request.prepare toolkit disk.fileSystem).1 = .error failure) :
    request.effect toolkit disk = (.error failure, disk) := by
  rw [effect_eq, plan_of_prepare_error failed]
  rfl

variable {report : Report} (prepared : (request.prepare toolkit disk.fileSystem).1 = .ok report)
include prepared

theorem effect_silent (silent : request.tracefile = none) :
    request.effect toolkit disk = (.ok (request.print report), disk) := by
  rw [effect_eq, plan_of_prepare_ok prepared, silent]
  rfl

theorem effect_tracefile {target : Path} (asked : request.tracefile = some target) :
    request.effect toolkit disk =
      match disk.write target (Utf8.encode report.tracefile) with
      | .error cause => (.error (.unwritableTracefile target cause), disk)
      | .ok written => (.ok (request.print report), written) := by
  rw [effect_eq, plan_of_prepare_ok prepared, asked]
  exact Plan.run_carryOut_write ..

theorem effect_unwritable {target : Path} (asked : request.tracefile = some target)
    {cause : IoError} (unwritable : disk.locateForWriting target = .error cause) :
    request.effect toolkit disk = (.error (.unwritableTracefile target cause), disk) := by
  rw [effect_tracefile prepared asked, Disk.write, unwritable]
  rfl

theorem effect_written {target : Path} (asked : request.tracefile = some target)
    {place : Location} (led : disk.locateForWriting target = .ok place) :
    ∃ after, request.effect toolkit disk = (.ok (request.print report), after) ∧
      disk.WrittenAt after place (Utf8.encode report.tracefile) ∧
      after.read target = .ok (Utf8.encode report.tracefile) := by
  obtain ⟨after, written, writtenAt, reads⟩ :=
    Disk.exists_write_of_locateForWriting led (Utf8.encode report.tracefile)
  refine ⟨after, ?_, writtenAt, reads⟩
  rw [effect_tracefile prepared asked, written]

theorem answer_of_prepare_ok :
    (request.effect toolkit disk).1 = .ok (request.print report) ∨
      ∃ target cause, request.tracefile = some target ∧
        disk.locateForWriting target = .error cause ∧
        (request.effect toolkit disk).1 = .error (.unwritableTracefile target cause) := by
  cases asked : request.tracefile with
  | none =>
      rw [effect_silent prepared asked]
      exact .inl rfl
  | some target =>
      cases led : disk.locateForWriting target with
      | error cause =>
          rw [effect_unwritable prepared asked led]
          exact .inr ⟨target, cause, rfl, led, rfl⟩
      | ok place =>
          obtain ⟨after, effect, -⟩ := effect_written prepared asked led
          rw [effect]
          exact .inl rfl

omit prepared

/-- A request fails for one of three causes, none of them a source that cannot be analyzed. -/
theorem cause_of_effect_error {failure : Failure}
    (failed : (request.effect toolkit disk).1 = .error failure) :
    (∃ cause, disk.read request.input = .error cause) ∨
      (∃ octets cause, disk.read request.input = .ok octets ∧
        (Coverage.ofProfile disk.fileSystem request.root octets).1 = .error cause) ∨
      ∃ target cause, request.tracefile = some target ∧
        disk.locateForWriting target = .error cause := by
  cases read : disk.read request.input with
  | error cause => exact .inl ⟨cause, rfl⟩
  | ok octets =>
      have prepared := prepare_read toolkit disk.fileSystem request read
      cases loaded : (Coverage.ofProfile disk.fileSystem request.root octets).1 with
      | error cause => exact .inr (.inl ⟨octets, cause, rfl, loaded⟩)
      | ok coverage =>
          rw [loaded] at prepared
          rcases answer_of_prepare_ok prepared with printed | ⟨target, cause, asked, unwritable, -⟩
          · rw [printed] at failed
            cases failed
          · exact .inr (.inr ⟨target, cause, asked, unwritable⟩)

theorem effect_without_tracefile {output : String}
    (answered : (request.effect toolkit disk).1 = .ok output) :
    { request with tracefile := none }.effect toolkit disk = (.ok output, disk) := by
  cases prepared : (request.prepare toolkit disk.fileSystem).1 with
  | error failure =>
      rw [effect_of_prepare_error prepared] at answered
      cases answered
  | ok report =>
      rcases answer_of_prepare_ok prepared with printed | ⟨target, cause, _, _, failed⟩
      · rw [printed] at answered
        cases answered
        have silent : { request with tracefile := none }.tracefile = none := rfl
        exact effect_silent prepared silent
      · rw [failed] at answered
        cases answered

end Effect

section Independence

variable (disk : Disk) (request : Request)

theorem effect_disk :
    (request.effect toolkit disk).2 =
      match (request.prepare toolkit disk.fileSystem).1, request.tracefile with
      | .ok report, some target =>
          (disk.write target (Utf8.encode report.tracefile)).toOption.getD disk
      | _, _ => disk := by
  cases prepared : (request.prepare toolkit disk.fileSystem).1 with
  | error failure => rw [effect_of_prepare_error prepared]
  | ok report =>
      cases asked : request.tracefile with
      | none => rw [effect_silent prepared asked]
      | some target =>
          rw [effect_tracefile prepared asked]
          dsimp only
          cases disk.write target (Utf8.encode report.tracefile) <;> rfl

theorem effect_json (options : TextOptions) :
    { request with layout := .json, options }.effect toolkit disk =
      { request with layout := .json }.effect toolkit disk := rfl

theorem effect_functions (functions : Bool) :
    { request with options := { request.options with functions } }.effect toolkit disk =
      request.effect toolkit disk := by
  have printed : print { request with options := { request.options with functions } } =
      print request := by
    funext report
    rw [print, print, Report.text_functions]
  have planned : { request with options := { request.options with functions } }.plan toolkit
      disk.fileSystem = request.plan toolkit disk.fileSystem := by
    unfold plan
    rw [printed]
    rfl
  rw [effect_eq, effect_eq, planned]

end Independence

/-- A request that cannot read or load its profile or cannot write its tracefile fails and leaves
the disk as it was.  Every other request answers with the report of the disk before the request, be
it printed only or also written; a tracefile that is written has the whole tracefile of that report
and nothing else is changed.  Printing and writing do not depend on each other, a document does not
depend on the options, and a text does not depend on the option for functions. -/
theorem run_contract (toolkit : Lua.Toolkit) (disk : Disk) (request : Request) :
    (∀ cause, disk.read request.input = .error cause →
      request.effect toolkit disk = (.error (.unreadableProfile request.input cause), disk)) ∧
    (∀ octets, disk.read request.input = .ok octets →
      (∀ cause, (Coverage.ofProfile disk.fileSystem request.root octets).1 = .error cause →
        request.effect toolkit disk = (.error (.unloadableProfile request.input cause), disk)) ∧
      ∀ coverage, (Coverage.ofProfile disk.fileSystem request.root octets).1 = .ok coverage →
        let report := coverage.report disk.fileSystem toolkit.grammar request.filter
        (request.tracefile = none →
          request.effect toolkit disk = (.ok (request.print report), disk)) ∧
        ∀ target, request.tracefile = some target →
          (∀ cause, disk.locateForWriting target = .error cause →
            request.effect toolkit disk = (.error (.unwritableTracefile target cause), disk)) ∧
          ∀ place, disk.locateForWriting target = .ok place →
            ∃ after, request.effect toolkit disk = (.ok (request.print report), after) ∧
              disk.WrittenAt after place (Utf8.encode report.tracefile) ∧
              after.read target = .ok (Utf8.encode report.tracefile)) ∧
    (∀ failure, (request.effect toolkit disk).1 = .error failure →
      (∃ cause, disk.read request.input = .error cause) ∨
      (∃ octets cause, disk.read request.input = .ok octets ∧
        (Coverage.ofProfile disk.fileSystem request.root octets).1 = .error cause) ∨
      ∃ target cause, request.tracefile = some target ∧
        disk.locateForWriting target = .error cause) ∧
    (∀ output, (request.effect toolkit disk).1 = .ok output →
      { request with tracefile := none }.effect toolkit disk = (.ok output, disk)) ∧
    (∀ layout options,
      ({ request with layout, options }.effect toolkit disk).2 = (request.effect toolkit disk).2) ∧
    (∀ options, { request with layout := .json, options }.effect toolkit disk =
      { request with layout := .json }.effect toolkit disk) ∧
    ∀ functions,
      { request with options := { request.options with functions } }.effect toolkit disk =
        request.effect toolkit disk := by
  refine ⟨?_, ?_, ?_, ?_, ?_, ?_, ?_⟩
  · intro cause unreadable
    exact effect_of_prepare_error (prepare_unreadable unreadable)
  · intro octets read
    have prepared := prepare_read toolkit disk.fileSystem request read
    constructor
    · intro cause unloadable
      rw [unloadable] at prepared
      exact effect_of_prepare_error prepared
    · intro coverage loaded report
      rw [loaded] at prepared
      refine ⟨effect_silent prepared, fun target asked => ⟨?_, ?_⟩⟩
      · exact fun cause unwritable => effect_unwritable prepared asked unwritable
      · exact fun place led => effect_written prepared asked led
  · exact fun failure failed => cause_of_effect_error failed
  · exact fun output answered => effect_without_tracefile answered
  · intro layout options
    exact (effect_disk disk _).trans (effect_disk disk request).symm
  · exact fun options => effect_json disk request options
  · exact fun functions => effect_functions disk request functions

end Request
end LuaCoverage
