import ShardVault.Json.Basic
import ShardVault.Text.Quoted

namespace ShardVault.Json

mutual

def display : Json → Text
  | null => "None"
  | bool true => "True"
  | bool false => "False"
  | int n => Text.ofInt n
  | real x => x.shown
  | text t => t.quoted
  | list items => "[" ++ Text.join ", " (displayItems items) ++ "]"
  | object fields =>
    [CodePoint.ofChar '{'] ++ Text.join ", " (displayFields fields) ++ [CodePoint.ofChar '}']

def displayItems : List Json → List Text
  | [] => []
  | item :: items => display item :: displayItems items

def displayFields : List (Text × Json) → List Text
  | [] => []
  | (key, value) :: fields => (key.quoted ++ ": " ++ display value) :: displayFields fields

end

def displayAlone : Json → Text
  | text t => t
  | value => value.display

/-- Several values in place of one text: nothing, the only one alone, or all in parentheses. -/
def displayAll : List Json → Text
  | [] => []
  | [value] => value.displayAlone
  | values => "(" ++ Text.join ", " (displayItems values) ++ ")"

end ShardVault.Json
