import LineShell.RcFile.Load
import LineShell.Proofs.OrderedMap
import LineShell.Proofs.Text.Lines
import Mathlib.Data.List.Forall2
import Mathlib.Data.List.ReduceOption

/-! # Merging configurations — one after the other, or as one text

    What a text sets depends on its lines alone, read one after the other
    with what is still open before them (`settings`).  An empty line closes
    what is open, just as the end of a text does, so a text says after an
    empty line what it says by itself (`saidAfter_empty`).  Two line feeds
    between two texts make such a line, however the first one ends, and
    configurations are merged by joining their texts
    (`Config.read_merges`). -/

namespace LineShell

open LineShell.Text

namespace Config

/-! ## What the parts of a text say -/

/-- What the pieces of a closed group say, if they say anything. -/
def closed (front : List (List Char)) : List (List Char) :=
  let cs := joinBySpace front
  if cs.isEmpty then [] else [cs]

/-- What is left of a part among the pieces of its group. -/
def Part.piece (p : Part) : List (List Char) :=
  [p.chars].filter fun chars => !chars.isEmpty

/-- What parts say after the pieces of a group that is still open. -/
def saidAfter (front : List (List Char)) : List Part → List (List Char)
  | [] => closed front
  | part :: rest =>
      if part.continued then saidAfter (front ++ part.piece) rest
      else closed (front ++ part.piece) ++ saidAfter [] rest

/-- The pieces of a group. -/
def piecesOf (group : List Part) : List (List Char) :=
  (group.map Part.chars).filter fun chars => !chars.isEmpty

@[simp] theorem piecesOf_nil : piecesOf [] = [] := rfl

theorem piecesOf_cons (part : Part) (group : List Part) :
    piecesOf (part :: group) = part.piece ++ piecesOf group := by
  rw [piecesOf, List.map_cons, Part.piece, piecesOf, ← List.filter_append,
    List.singleton_append]

@[simp] theorem closed_nil : closed [] = [] := rfl

/-- The groups of parts say what the parts say; the first group goes on
    with the one that is open. -/
theorem saidAfter_eq (front : List (List Char)) (parts : List Part) :
    saidAfter front parts =
      match groups parts with
      | [] => closed front
      | group :: more =>
          closed (front ++ piecesOf group) ++
            more.flatMap fun group => closed (piecesOf group) := by
  induction parts generalizing front with
  | nil => rfl
  | cons part rest ih =>
      rw [saidAfter, groups, ih, ih]
      split
      · cases groups rest with
        | nil => simp [piecesOf_cons]
        | cons group more => simp [piecesOf_cons]
      · cases groups rest with
        | nil => simp [piecesOf_cons]
        | cons group more => simp [piecesOf_cons]

/-- The groups of a text say what its parts say. -/
theorem saidAfter_nil (parts : List Part) :
    saidAfter [] parts =
      (groups parts).flatMap fun group => closed (piecesOf group) := by
  rw [saidAfter_eq]
  cases groups parts with
  | nil => rfl
  | cons group more => rfl

/-- An empty line closes what is open as the end of the text does. -/
theorem saidAfter_empty (front : List (List Char)) (number : Nat)
    (parts more : List Part) :
    saidAfter front (parts ++ ⟨number, [], false⟩ :: more) =
      saidAfter front parts ++ saidAfter [] more := by
  induction parts generalizing front with
  | nil =>
      show closed (front ++ []) ++ _ = closed front ++ _
      rw [List.append_nil]
  | cons part rest ih =>
      rw [List.cons_append, saidAfter, saidAfter]
      split
      · exact ih _
      · rw [ih, List.append_assoc]

/-! ## What a text sets -/

/-- What a statement sets, if it sets anything. -/
def Statement.setting? : Statement → Option (String × Setting)
  | .set name setting => some (name, setting)
  | .malformed _ _ => none

/-- What a line that is joined already sets, if it sets anything. -/
def setting? (cs : List Char) : Option (String × Setting) :=
  (statement 0 cs).setting?

/-- What lines set, in order. -/
def settings (ls : List (List Char)) : List (String × Setting) :=
  (saidAfter [] (ls.map (partOf 0))).filterMap setting?

theorem setting?_statement (number : Nat) (cs : List Char) :
    (statement number cs).setting? = setting? cs := by
  rw [setting?, statement, statement]
  split
  · split
    · rfl
    · split <;> rfl
  · rfl

theorem partOf_eq (number : Nat) (line : List Char) :
    partOf number line = { partOf 0 line with number } := by
  rw [partOf, partOf]
  dsimp only
  split <;> rfl

/-- What parts say does not depend on the numbers of their lines. -/
theorem saidAfter_partsFrom (front : List (List Char)) (number : Nat)
    (ls : List (List Char)) :
    saidAfter front (partsFrom number ls) =
      saidAfter front (ls.map (partOf 0)) := by
  induction ls generalizing front number with
  | nil => rfl
  | cons line rest ih =>
      rw [partsFrom, List.map_cons, partOf_eq, saidAfter, saidAfter, ih, ih]
      rfl

/-- Statements change a configuration by what they set. -/
theorem foldl_apply (config : Config) (said : List Statement) :
    said.foldl apply config =
      config.insertAll (said.filterMap Statement.setting?) := by
  induction said generalizing config with
  | nil => rfl
  | cons statement rest ih =>
      rw [List.foldl_cons, ih]
      cases statement with
      | set name setting => rfl
      | malformed number content => rfl

/-- What the statements of a text set is what its lines set. -/
theorem filterMap_statements (text : List Char) :
    (statements text).filterMap Statement.setting? = settings (lines text) := by
  rw [settings, ← saidAfter_partsFrom [] 1, saidAfter_nil, statements]
  induction groups (partsFrom 1 (lines text)) with
  | nil => rfl
  | cons group more ih =>
      have hjoined : joined group = joinBySpace (piecesOf group) := rfl
      rw [List.flatMap_cons, List.filterMap_append, ← ih, closed, ← hjoined,
        List.filterMap_cons]
      dsimp only
      by_cases hempty : (joined group).isEmpty = true
      · rw [if_pos hempty, if_pos hempty]
        rfl
      · rw [if_neg hempty, if_neg hempty]
        dsimp only
        rw [List.filterMap_cons, List.filterMap_cons, setting?_statement]
        cases setting? (joined group) with
        | none => rfl
        | some entry => rfl

/-- The configuration of a text is what its lines set. -/
theorem read_eq (text : String) :
    read text = .ofList (settings (lines text.toList)) := by
  rw [read, foldl_apply, filterMap_statements]
  rfl

/-- Lines after an empty one set what they set by themselves. -/
theorem settings_empty (ls more : List (List Char)) :
    settings (ls ++ [] :: more) = settings ls ++ settings more := by
  have hempty : partOf 0 [] = ⟨0, [], false⟩ := by decide
  rw [settings, List.map_append, List.map_cons, hempty, saidAfter_empty,
    List.filterMap_append]
  rfl

/-- A text after two line feeds sets what it sets by itself. -/
theorem settings_lines_append (cs rest : List Char) :
    settings (lines (cs ++ '\n' :: '\n' :: rest)) =
      settings (lines cs) ++ settings (lines rest) := by
  rcases lines_append_lineFeeds cs rest with h | h
  · rw [h, settings_empty]
  · have hfirst := settings_empty [] (lines rest)
    rw [h, settings_empty]
    exact congrArg (settings (lines cs) ++ ·) hfirst

/-- Texts with two line feeds between them set what each of them sets. -/
theorem settings_intercalate (texts : List String) :
    settings (lines ("\n\n".intercalate texts).toList) =
      texts.flatMap fun text => settings (lines text.toList) := by
  induction texts with
  | nil => rfl
  | cons text rest ih =>
      cases rest with
      | nil => simp
      | cons next rest =>
          rw [String.intercalate_cons_cons, String.toList_append,
            String.toList_append, List.append_assoc, List.flatMap_cons, ← ih]
          exact settings_lines_append _ _

theorem read_unifyNewlines (cs : List Char) :
    read (String.ofList (unifyNewlines cs)) = read (String.ofList cs) := by
  rw [read_eq, read_eq, String.toList_ofList, String.toList_ofList,
    lines_unifyNewlines]

/-! ## Files -/

variable {files : FileTree} {homes : Homes}

/-- What stands at the path of a configuration file: nothing, or a text. -/
inductive Stands (files : FileTree) (homes : Homes) :
    Path → Option String → Prop where
  | missing {p q : Path} (hhome : p.expandHome? homes = some q)
      (hpresent : files.present q = .ok false) : Stands files homes p none
  | text {p q : Path} {bytes : List UInt8} {cs : List Char}
      (hhome : p.expandHome? homes = some q)
      (hpresent : files.present q = .ok true)
      (hread : files.read q = .ok bytes)
      (hdecode : decodeUtf8 bytes = .ok cs) :
      Stands files homes p (some (String.ofList cs))

/-- Reading a file that is missing, or holds a text. -/
theorem readFile_stands {p : Path} {text : Option String}
    (h : Stands files homes p text) :
    (readFile files homes p).1 = .ok (text.map read) := by
  cases h with
  | missing hhome hpresent =>
      rw [readFile, Path.expandHome, hhome]
      dsimp only
      rw [hpresent]
      rfl
  | text hhome hpresent hread hdecode =>
      rw [readFile, Path.expandHome, hhome]
      dsimp only
      rw [hpresent]
      dsimp only
      rw [hread]
      dsimp only
      rw [textOfBytes, hdecode]
      dsimp only
      rw [readFrom, read_unifyNewlines]
      rfl

/-- What loading a file and then others comes to. -/
theorem loadInto_cons (merged : Config) (p : Path) (rest : List Path) :
    (loadInto files homes merged (p :: rest)).1 =
      match (readFile files homes p).1 with
      | .error f => .error f
      | .ok none => (loadInto files homes merged rest).1
      | .ok (some config) =>
          (loadInto files homes (merged.insertAll config.toList) rest).1 := by
  rw [loadInto]
  rcases readFile files homes p with ⟨_ | _ | config, events⟩ <;> rfl

/-- Files that are missing or hold texts are read and merged, and then come
    those after them. -/
theorem loadInto_stands {paths : List Path} {texts : List (Option String)}
    (h : List.Forall₂ (Stands files homes) paths texts) (merged : Config)
    (rest : List Path) :
    (loadInto files homes merged (paths ++ rest)).1 =
      (loadInto files homes
        (merged.insertAll (texts.reduceOption.flatMap fun text =>
          settings (lines text.toList))) rest).1 := by
  induction h generalizing merged with
  | nil => rfl
  | @cons p text paths texts hp _ ih =>
      rw [List.cons_append, loadInto_cons, readFile_stands hp]
      cases text with
      | none => exact ih merged
      | some text =>
          rw [List.reduceOption_cons_of_some, List.flatMap_cons,
            OrderedMap.insertAll_append, ← ih,
            ← OrderedMap.insertAll_ofList merged, ← read_eq]
          rfl

/-- So files that are missing or hold texts are loaded as one text: theirs,
    in order, with two line feeds between them. -/
theorem load_stands {paths : List Path} {texts : List (Option String)}
    (h : List.Forall₂ (Stands files homes) paths texts) :
    (load files homes paths).1 =
      .ok (read ("\n\n".intercalate texts.reduceOption)) := by
  have hall := loadInto_stands h .empty []
  rw [List.append_nil] at hall
  rw [load, hall, read_eq, settings_intercalate]
  rfl

/-! ## Merging -/

/-- Reading a text, an empty line and another text is reading the first and
    then setting what the second sets: a name keeps its first place and gets
    its last value.  And loading files that are missing or hold texts is
    reading these texts, in order, with empty lines between them. -/
theorem read_merges :
    (∀ t₁ t₂ : String, read (t₁ ++ "\n\n" ++ t₂) =
      (read t₁).insertAll (read t₂).toList) ∧
    ∀ (files : FileTree) (homes : Homes) (paths : List Path)
      (texts : List (Option String)),
      List.Forall₂ (Stands files homes) paths texts →
      (load files homes paths).1 =
        .ok (read ("\n\n".intercalate texts.reduceOption)) := by
  constructor
  · intro t₁ t₂
    have hlines : settings (lines (t₁ ++ "\n\n" ++ t₂).toList) =
        settings (lines t₁.toList) ++ settings (lines t₂.toList) := by
      rw [String.toList_append, String.toList_append, List.append_assoc]
      exact settings_lines_append _ _
    rw [read_eq, hlines, OrderedMap.ofList, OrderedMap.insertAll_append,
      read_eq, read_eq, OrderedMap.insertAll_ofList]
    rfl
  · intro files homes paths texts h
    exact load_stands h

/-- Two files in a home directory that is the working directory: one ends in
    a line that is to go on and a carriage return, the other sets the same
    name again. -/
def homeFiles : FileTree :=
  ((FileTree.ofWorking ["h"]).set ["h", "a"] (.file [118, 92, 13])).set
    ["h", "b"] (.file [118, 32, 61, 32, 49, 10, 119])

/-- The home directory of these files. -/
def homeOfFiles : Homes := ⟨some "/h", "/", []⟩

/-- The two files, with one between them that is missing. -/
theorem read_merges_missing :
    List.Forall₂ (Stands homeFiles homeOfFiles)
        [.ofText "a", .ofText "c", .ofText "~/b"]
        [some "v\\\r", none, some "v = 1\nw"] ∧
      (load homeFiles homeOfFiles
        [.ofText "a", .ofText "c", .ofText "~/b"]).1 =
          .ok (read "v\\\r\n\nv = 1\nw") ∧
      (read "v\\\r\n\nv = 1\nw").toList =
        [("v", .text "1"), ("w", .flag true)] := by
  have hfirst : Stands homeFiles homeOfFiles (.ofText "a")
      (some "v\\\r") := by
    have hhome : Path.expandHome? homeOfFiles (.ofText "a") =
        some (.ofText "a") := by decide +kernel
    have hpresent : homeFiles.present (.ofText "a") = .ok true := by
      decide +kernel
    have hread : homeFiles.read (.ofText "a") = .ok [118, 92, 13] := by
      decide +kernel
    have hdecode : decodeUtf8 [118, 92, 13] = .ok ['v', '\\', '\r'] := rfl
    exact .text hhome hpresent hread hdecode
  have hmissing : Stands homeFiles homeOfFiles (.ofText "c") none := by
    have hhome : Path.expandHome? homeOfFiles (.ofText "c") =
        some (.ofText "c") := by decide +kernel
    exact .missing hhome (by decide +kernel)
  have hlast : Stands homeFiles homeOfFiles (.ofText "~/b")
      (some "v = 1\nw") := by
    have hhome : Path.expandHome? homeOfFiles (.ofText "~/b") =
        some (.ofText "/h/b") := by decide +kernel
    have hpresent : homeFiles.present (.ofText "/h/b") = .ok true := by
      decide +kernel
    have hread : homeFiles.read (.ofText "/h/b") =
        .ok [118, 32, 61, 32, 49, 10, 119] := by decide +kernel
    have hdecode : decodeUtf8 [118, 32, 61, 32, 49, 10, 119] =
        .ok ['v', ' ', '=', ' ', '1', '\n', 'w'] := rfl
    exact .text hhome hpresent hread hdecode
  have hstands : List.Forall₂ (Stands homeFiles homeOfFiles)
      [.ofText "a", .ofText "c", .ofText "~/b"]
      [some "v\\\r", none, some "v = 1\nw"] :=
    .cons hfirst (.cons hmissing (.cons hlast .nil))
  have htext : "\n\n".intercalate
      [some "v\\\r", none, some "v = 1\nw"].reduceOption =
        "v\\\r\n\nv = 1\nw" := by
    decide +kernel
  have hmerged := read_merges.2 _ _ _ _ hstands
  rw [htext] at hmerged
  exact ⟨hstands, hmerged, by decide⟩

end Config

end LineShell
