import MachineTuning.Command.Switch

namespace MachineTuning.Command

/-!
# Help texts

A help text says what a command does, how it is called and what its parts mean, each part in a
table whose second column is aligned.
-/

/-- A titled table of a help text. -/
structure HelpTable where
  title : String
  rows : List (String × String)

/-- A help text. -/
structure Help where
  about : String
  usage : String
  tables : List HelpTable

namespace Help

/-- A text whose further lines start at a column. -/
def indented (column : Nat) (s : String) : String :=
  String.ofList (s.toList.flatMap fun c => if c = '\n' then c :: List.replicate column ' ' else [c])

/-- The rows of a table whose first column is as wide as `width`, from the first name on.  Names
    are always seen; what stands between two of them is shown without what a terminal would act
    on. -/
def rowsText (width : Nat) : List (String × String) → String
  | [] => ""
  | (name, description) :: rows =>
    let padding := String.ofList (List.replicate (width - name.length + 2) ' ')
    let lineEnd := if rows.isEmpty then "\n" else "\n  "
    name ++ padding ++ Text.Terminal.visible (indented (width + 4) description ++ lineEnd) ++
      rowsText width rows

/-- A table: its title on one line, then a line for each row. -/
def tableText (table : HelpTable) : String :=
  let width := table.rows.foldl (fun width row => max width row.1.length) 0
  table.title ++ ":\n  " ++ rowsText width table.rows

/-- A help text. -/
def text (help : Help) : String :=
  help.about ++ "\n\nUsage: " ++ help.usage ++ "\n" ++
    String.join (help.tables.map fun table => "\n" ++ tableText table)

/-- The table of a command's switches. -/
def switchTable (switches : List Switch) : HelpTable :=
  ⟨"Options", switches.map fun s => (s.label, s.note)⟩

end Help

end MachineTuning.Command
