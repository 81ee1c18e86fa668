/-
The pieces of Markdown that pages are made of.

A table has one line for its headings, one that separates and one for each row; in a cell a bar is escaped and white
space is collapsed, so a row stays on its line.
-/
import InterfacePages.Text.Blank

namespace InterfacePages

namespace Markdown

def heading (t : Text) (level : Nat) : Text := Text.repeated level 35 ++ " " ++ t

def codeBlock (code : Text) (language : Text) : Text := "```" ++ language ++ "\n" ++ code ++ "\n```"

def link (t url : Text) : Text := "[" ++ t ++ "](" ++ url ++ ")"

def list (items : List Text) : Text := Text.joinLines (items.map fun item => "- " ++ item)

def cell (t : Text) : Text := Text.joinWith " " (Text.words (Text.replaceAll "|" "\\|" t))

def row (cells : List Text) : Text := "| " ++ Text.joinWith " | " (cells.map cell) ++ " |"

def table (headings : List Text) (rows : List (List Text)) : Text :=
  Text.joinLines ((headings :: headings.map (fun _ => "---") :: rows).map row)

def code (t : Text) : Text := "`" ++ t ++ "`"

end Markdown

end InterfacePages
