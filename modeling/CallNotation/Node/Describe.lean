import CallNotation.Node.Basic

/-!
# Trees in one line, and their equality

`Node.describe` writes a tree with the name of each node's kind and of each of its fields.
`Node.same` compares two trees: the nodes must be of the same language and form and their fields
equal, and foreign values compare as `Foreign.same` does.
-/

namespace CallNotation.Node

/-- A kind and its fields. -/
def describeForm (kind : String) (fields : List (String × Text)) : Text :=
  kind.toList ++ '(' ::
    List.intercalate [',', ' '] (fields.map fun f => f.1.toList ++ '=' :: f.2) ++ [')']

/-- Items in brackets. -/
def describeList (items : List Text) : Text :=
  '[' :: List.intercalate [',', ' '] items ++ [']']

mutual

/-- The tree in one line. -/
def describe : Node → Text
  | program body => describeForm "Program" [("body", describeList (describeAll body))]
  | call name params =>
    describeForm "CallExpression"
      [("name", Text.quoted name), ("params", describeList (describeAll params))]
  | number value => describeForm "NumberLiteral" [("value", Text.quoted value)]
  | string value => describeForm "StringLiteral" [("value", Text.quoted value)]
  | bare => describeForm "ASTNode" []
  | targetProgram body => describeForm "Program" [("body", describeList (describeAll body))]
  | statement expression => describeForm "ExpressionStatement" [("expression", describe expression)]
  | targetCall callee arguments =>
    describeForm "CallExpression"
      [("callee", describe callee), ("arguments", describeList (describeAll arguments))]
  | identifier name => describeForm "Identifier" [("name", Text.quoted name)]
  | targetNumber value => describeForm "NumberLiteral" [("value", Text.quoted value)]
  | targetString value => describeForm "StringLiteral" [("value", Text.quoted value)]
  | targetBare => describeForm "CNode" []
  | foreign value => value.describe

/-- Each tree in one line. -/
def describeAll : List Node → List Text
  | [] => []
  | n :: ns => describe n :: describeAll ns

end

mutual

/-- Whether two trees are equal. -/
def same : Node → Node → Bool
  | program b, program c => sameAll b c
  | call m b, call n c => m == n && sameAll b c
  | number v, number w => v == w
  | string v, string w => v == w
  | bare, bare => true
  | targetProgram b, targetProgram c => sameAll b c
  | statement e, statement f => same e f
  | targetCall e b, targetCall f c => same e f && sameAll b c
  | identifier m, identifier n => m == n
  | targetNumber v, targetNumber w => v == w
  | targetString v, targetString w => v == w
  | targetBare, targetBare => true
  | foreign v, foreign w => v.same w
  | _, _ => false

/-- Whether two lists of trees are equal. -/
def sameAll : List Node → List Node → Bool
  | [], [] => true
  | n :: ns, m :: ms => same n m && sameAll ns ms
  | _, _ => false

end

end CallNotation.Node
