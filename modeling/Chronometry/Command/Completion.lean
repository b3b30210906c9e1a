import Chronometry.Command.Line

/-! Scripts that let a shell complete the names of commands and options. -/
namespace Chronometry.Command

def programName : String := "tickcal"

/-- Every command, and every option in its long form. -/
def completionWords : List String :=
  outerLevel.commands ++
    ((Name.all.flatMap Name.keys ++ outerLevel.keys).eraseDups.map fun key => "--" ++ key.long)

def completionLines (shell : Shell) : List String :=
  let words := " ".intercalate completionWords
  match shell with
  | .bash => ["complete -W '" ++ words ++ "' " ++ programName]
  | .elvish =>
    ["set edit:completion:arg-completer[" ++ programName ++ "] = \x7b|@words| put " ++ words ++ " \x7d"]
  | .fish => ["complete -c " ++ programName ++ " -f -a '" ++ words ++ "'"]
  | .powerShell =>
    ["Register-ArgumentCompleter -Native -CommandName " ++ programName ++ " -ScriptBlock \x7b",
      "  param($word) '" ++ words ++ "'.Split(' ') | Where-Object \x7b $_ -like \"$word*\" \x7d",
      "\x7d"]
  | .zsh => ["#compdef " ++ programName, "compadd " ++ words]

end Chronometry.Command
