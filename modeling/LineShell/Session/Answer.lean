import LineShell.Session.Completion
import LineShell.Session.Help
import LineShell.Session.Loop
import LineShell.Session.Start

/-! # Answers — what a session says to each request

    Every request of user code is answered by the part of the session that
    it is about.  Where a request needs a shell and there is none, it asks
    a missing value for a member. -/

namespace LineShell

/-- The member of the shell that a prompt is handed to, if it needs
    one. -/
def PromptUse.shellMember? : PromptUse → Option String
  | .install => some "set_prompt"
  | .assign => some "prompt"
  | .render => none

/-- The member of the shell that a request is about, if it needs one. -/
def Request.shellMember? : Request → Option String
  | .runLine _ => some "onecmd"
  | .dispatch .. => some "dispatch"
  | .run => some "run"
  | .phase => some "state"
  | .complete .. => some "complete"
  | .completeWord .. => some "complete"
  | .history _ => some "history"
  | .register .. => some "register_extension"
  | .block _ => some "_plugin_manager"
  | .prompt use .. => use.shellMember?
  | .promptKind => some "prompt"
  | .renderPrompt => some "render_prompt"
  | .options => some "args"
  | .setOption .. => some "args"
  | .config _ => some "config"
  | .report => some "_hooks"
  | .callFirst .. => some "_hooks"
  | .callChain .. => some "_hooks"
  | .notify .. => some "_hooks"
  | .describe => some "reader"
  | _ => none

namespace Run

variable (execute : Executor)

/-- The class of a name. -/
def classOf (name : String) : Run Class := do
  match (← get).catalogue.find? name with
  | some c => pure c
  | none => throw (.missingKey (Text.quote name))

/-- A handler as it is shown: name, source and documentation. -/
def describeHandler (name : String) (h : Handler) : Value :=
  .list [.text name, .text h.source,
    (h.member.doc?.map Value.text).getD .null]

/-- Calls what a name resolves to. -/
def callResolved (b : Option Bound) (args : List Value) : Run Value := do
  match b with
  | none => pure (.text "not found")
  | some b =>
      let v ← callBound execute b (.ofArgs args)
      pure (.list [.text "found", v])

/-- Answers a request about the registry. -/
def answerRegistry : RegistryRequest → Run Value
  | .scan className source => do
      let c ← classOf className
      let label := (givenName? source).getD c.name
      modifyRegistry fun r => r.scan c label
      pure .null
  | .has name => do pure (.bool ((← get).registry.has name))
  | .descriptor name => do
      pure ((((← get).registry.handler? name).map
        (describeHandler name)).getD .null)
  | .descriptors => do
      pure (.list ((← get).registry.descriptors.map fun entry =>
        describeHandler entry.1 entry.2))
  | .resolve .handler name args => do
      callResolved execute ((← get).registry.dispatch? name) args
  | .resolve .completer name args => do
      callResolved execute ((← get).registry.completer? name) args
  | .resolve .help name args => do
      match (← get).registry.helper? name with
      | some (.member b) => callResolved execute (some b) args
      | some (.doc text) => pure (.list [.text "found", .text text])
      | none => callResolved execute none args
  | .ask args => do pure (.text (← helpText execute args))

/-- Replaces the history of the reader. -/
def setHistory (entries : List String) : Run Unit :=
  modify fun s => { s with reader := { s.reader with history := entries } }

/-- Answers a request about the reader. -/
def answerReader : ReaderRequest → Run Value
  | .readLine prompt keys => do pure (.text (← readLine prompt keys))
  | .history => do pure (.texts (← get).reader.history)
  | .setHistory entries => do
      setHistory entries
      pure .null
  | .persist => do
      persist
      pure .null

/-- The text of a file as it stands, or what stands in its place. -/
def fileText (path : String) : Run Value := do
  let files := (← get).files
  let p := Path.ofText path
  match files.read p with
  | .ok bytes =>
      match Text.decodeUtf8 bytes with
      | .ok cs => pure (.text (String.ofList cs))
      | .error e => throw (.undecodable e)
  | .error e =>
      match e.trouble with
      | .isDirectory => pure (.map [("dir", .bool true)])
      | _ => pure .null

/-- Does what is to be done with a prompt. -/
def applyPrompt (use : PromptUse) (p : Except Fault Prompt) :
    Run Value := do
  let p ← ofAnswer p
  match use with
  | .render =>
      pure (.list [.object p.kindName, ← render execute p])
  | _ =>
      modify fun s => { s with prompt := p }
      pure .null

/-- The parts of a shell, one after the other. -/
def describe : Run Value := do
  let prompt ← renderPrompt execute
  let s ← get
  pure (.list [.object s.reader.kindName, .object s.output.kindName,
    .object s.prompt.kindName, prompt, .map s.options.toList,
    .map (s.config.map Setting.value).toList])

/-- Loads a history file. -/
def loadHistory (path : Option String) : Run Value := do
  let s ← get
  let entries ← recorded
    (History.load s.files s.world.homes (path.map Path.ofText))
  pure (.texts entries)

/-- Writes a history file. -/
def saveHistory (path : Option String) (entries : List String)
    (limit : Int) : Run Value := do
  let s ← get
  let (files, result, events) :=
    History.save s.files s.world.homes entries limit (path.map Path.ofText)
  set { s with files, events := s.events ++ events }
  ofAnswer result
  pure .null

/-- Does a text need paging? -/
def needsPaging (text : String) : Run Value := do
  match (← get).output with
  | .console c => pure (.bool (c.needsPaging text))
  | .stream => pure (.bool false)

/-- Data that a class holds under a name. -/
def attributeOf (owner : Option Class) (name : String) : Run Value := do
  match owner.bind fun c => c.lookup? name with
  | some (.data v) => pure v
  | some (.function _) => pure (.object "method")
  | none =>
      throw (.noAttribute ((owner.map Class.name).getD "NoneType") name)

/-- Answers a request of code that stands in a frame, whether or not
    there is a shell. -/
def answerAny (frame : Frame) : Request → Run Value
  | .inherited => callInherited execute frame
  | .trace v => do
      addTrace [v]
      pure .null
  | .kept name => do pure ((← get).memory name)
  | .amend name change => do
      modify fun s => s.amended name change
      pure .null
  | .fileText path => fileText path
  | .runLine line => runLine execute line
  | .dispatch line raw => dispatch execute line raw
  | .run => do
      session execute
      pure .null
  | .quit => callShell execute "quit" []
  | .phase => do pure (.phase (← get).phase)
  | .shellText => do
      let s ← get
      pure (.text (s.shellValue.shown s.identity))
  | .help args => callShell execute "help" args
  | .escape args => callShell execute "shell_escape" args
  | .environment r => answerEnvironment r
  | .emit v => callShell execute "emit" [v]
  | .complete text line start => do
      pure (.texts (← complete execute text line start))
  | .completeWord text cursor => completeWord execute text cursor
  | .completions names => do
      names.forM fun names => modifyRegistry fun r => r.setDispatchable names
      pure (.texts (← get).registry.dispatchable)
  | .topics names => do
      names.forM fun names => modifyRegistry fun r => r.setTopics names
      pure (.texts (← get).registry.topics)
  | .history entries => do
      entries.forM setHistory
      pure (.texts (← get).reader.history)
  | .register className name twice => do
      registerNew (← classOf className) name twice
  | .block name => do
      modify fun s => { s with extensions := s.extensions.block name }
      pure .null
  | .prompt use p args => do
      applyPrompt execute use (Prompt.ofPlain (← identity) p args)
  | .promptKind => do pure (.object (← get).prompt.kindName)
  | .renderPrompt => renderPrompt execute
  | .options => do pure (.map (← get).options.toList)
  | .setOption name v => do
      modify fun s => { s with options := s.options.insert name v }
      pure .null
  | .config none => do
      pure (.map ((← get).config.map Setting.value).toList)
  | .config (some name) => do
      pure ((((← get).config.get? name).map Setting.value).getD .null)
  | .report => do
      pure (.map ((← get).extensions.report.map fun entry =>
        (entry.1, .texts entry.2)))
  | .callFirst hook params => callFirst execute hook params
  | .callChain hook key v params => callChain execute hook key v params
  | .notify stage f line => do
      notify execute stage f line
      pure .null
  | .describe => describe execute
  | .registry r => answerRegistry execute r
  | .reader r => answerReader r
  | .loadHistory path => loadHistory path
  | .saveHistory path entries limit => saveHistory path entries limit
  | .write text => do
      writeText text
      pure .null
  | .needsPaging text => needsPaging text
  | .stop => do
      modify fun s => { s with quitRequested := true }
      pure .null
  | .helpText args => do pure (.text (← helpText execute args))
  | .launch argv => launch argv
  | .writeLine v => do
      writeLine v
      pure .null
  | .className => do
      pure (.text ((frame.owner.map Class.name).getD "NoneType"))
  | .attribute name => attributeOf frame.owner name
  | .display v => do pure (.text (v.display (← identity)))
  | .shown v => do pure (.text (v.shown (← identity)))
  | .kindOf v => do pure (.text (v.kindName (← identity)))

/-- Does a step that is about a member of the shell. -/
def withShell {α : Type} (member : Option String) (step : Run α) :
    Run α := do
  match member, (← get).shell with
  | some name, none => throw (.noAttribute "NoneType" name)
  | _, _ => step

/-- Answers a request of code that stands in a frame. -/
def answer (frame : Frame) (r : Request) : Run Value :=
  withShell r.shellMember? (answerAny execute frame r)

/-- Answers the hand-over of a prompt that is code. -/
def answerPromptCode (use : PromptUse) (code : List Value → Program)
    (bound : Option (List Value)) (args : List Value) : Run Value :=
  withShell use.shellMember?
    (applyPrompt execute use (Prompt.ofCode code bound args))

end Run

end LineShell
