import AbiBindings.Script.Identifier
import AbiBindings.Script.Token
import AbiBindings.Script.Tree

/-!
# Printing generated code

Each node of the tree is printed as tokens at a level of indentation.  Blocks
and object literals open a level and put each statement or entry on a line of
its own; everything else stays on its line.  Parentheses are written where an
operand binds weaker than its place asks for: `Expr.isLoose` for the places that
take no operator at all, and `BinaryOp.precedence` between operators, which
associate to the left.
-/

namespace AbiBindings.Script

open Token

/-- The mark of an operator. -/
def BinaryOp.mark : BinaryOp → Mark
  | .plus => .plus
  | .strictEq => .strictEq
  | .strictNe => .strictNe
  | .and => .and
  | .or => .or

/-- How tightly an operator binds; a greater number binds tighter. -/
def BinaryOp.precedence : BinaryOp → Nat
  | .or => 1
  | .and => 2
  | .strictEq | .strictNe => 3
  | .plus => 4

/-- Whether the expression needs parentheses as the operand of a call, a
property access, `new` or `typeof`. -/
def Expr.isLoose : Expr → Bool
  | .arrow .. | .binary .. | .assign .. | .typeOf .. => true
  | _ => false

/-- Whether the expression needs parentheses on the given side of `op`. -/
def Expr.isLooseBeside (op : BinaryOp) (onRight : Bool) : Expr → Bool
  | .binary _ inner _ =>
      inner.precedence < op.precedence || (onRight && inner.precedence == op.precedence)
  | .arrow .. | .assign .. => true
  | _ => false

/-- Whether the type is a function type. -/
def Ty.isFunction : Ty → Bool
  | .fn .. => true
  | _ => false

/-- Whether the type needs parentheses before the brackets of an array type. -/
def Ty.isLoose : Ty → Bool
  | .union _ | .fn .. => true
  | _ => false

/-- A key of an object literal or object type: bare when it reads as a word of
its own, else quoted. -/
def keyToken (key : String) : Token :=
  if isIdentifier key || isReserved key then word key else quoted key

/-- Type parameters in angle brackets. -/
def typeParamTokens (names : List String) : List Token :=
  angled (names.map fun n => [word n])

mutual

/-- The tokens of a type. -/
def Ty.tokens (level : Nat) : Ty → List Token
  | .string => [word "string"]
  | .number => [word "number"]
  | .boolean => [word "boolean"]
  | .any => [word "any"]
  | .void => [word "void"]
  | .ref name args => word name :: angled (tyParts level args)
  | .array element =>
      parenthesisedIf element.isLoose (element.tokens level)
        ++ [mark .openBracket, mark .closeBracket]
  | .tuple items => bracketed (commaSeparated (tyParts level items))
  | .union members => List.intercalate [space, mark .bar, space] (unionParts level members)
  | .object fields =>
      if fields.isEmpty then [mark .openBrace, mark .closeBrace]
      else
        [mark .openBrace, space] ++ List.intercalate [space] (fieldParts level fields)
          ++ [space, mark .closeBrace]
  | .fn params returns =>
      parenthesised (commaSeparated (paramParts level params)) ++ [space, mark .arrow, space]
        ++ returns.tokens level

/-- The tokens of each type. -/
def tyParts (level : Nat) : List Ty → List (List Token)
  | [] => []
  | t :: rest => t.tokens level :: tyParts level rest

/-- The tokens of each member of a union; a function type goes in
parentheses. -/
def unionParts (level : Nat) : List Ty → List (List Token)
  | [] => []
  | t :: rest => parenthesisedIf t.isFunction (t.tokens level) :: unionParts level rest

/-- The tokens of each field of an object type. -/
def fieldParts (level : Nat) : List (String × Ty) → List (List Token)
  | [] => []
  | (key, t) :: rest =>
      ([keyToken key, mark .colon, space] ++ t.tokens level ++ [mark .semicolon])
        :: fieldParts level rest

/-- The tokens of a parameter. -/
def Param.tokens (level : Nat) : Param → List Token
  | { name, ty, optional, rest, default } =>
      (if rest then [mark .ellipsis] else []) ++ [word name]
        ++ (if optional then [mark .question] else [])
        ++ annotationTokens level ty ++ defaultTokens level default

/-- The tokens of each parameter. -/
def paramParts (level : Nat) : List Param → List (List Token)
  | [] => []
  | p :: rest => p.tokens level :: paramParts level rest

/-- A colon and the type, where one is given. -/
def annotationTokens (level : Nat) : Option Ty → List Token
  | none => []
  | some t => [mark .colon, space] ++ t.tokens level

/-- The default value of a parameter, where one is given. -/
def defaultTokens (level : Nat) : Option Expr → List Token
  | none => []
  | some e => [space, mark .equals, space] ++ e.tokens level

/-- The tokens of an expression. -/
def Expr.tokens (level : Nat) : Expr → List Token
  | .ident name => [word name]
  | .str value => [quoted value]
  | .num value => [number value]
  | .undefined => [word "undefined"]
  | .this => [word "this"]
  | .array items => bracketed (commaSeparated (exprParts level items))
  | .object entries => block level (entryParts (level + 1) entries)
  | .prop object name =>
      parenthesisedIf object.isLoose (object.tokens level) ++ [mark .dot, word name]
  | .call callee typeArgs args =>
      parenthesisedIf callee.isLoose (callee.tokens level) ++ angled (tyParts level typeArgs)
        ++ parenthesised (commaSeparated (exprParts level args))
  | .new callee typeArgs args =>
      [word "new", space] ++ parenthesisedIf callee.isLoose (callee.tokens level)
        ++ angled (tyParts level typeArgs)
        ++ parenthesised (commaSeparated (exprParts level args))
  | .binary left op right =>
      parenthesisedIf (left.isLooseBeside op false) (left.tokens level)
        ++ [space, mark op.mark, space]
        ++ parenthesisedIf (right.isLooseBeside op true) (right.tokens level)
  | .typeOf operand =>
      [word "typeof", space] ++ parenthesisedIf operand.isLoose (operand.tokens level)
  | .assign target value =>
      target.tokens level ++ [space, mark .equals, space] ++ value.tokens level
  | .arrow typeParams params returns body =>
      typeParamTokens typeParams ++ parenthesised (commaSeparated (paramParts level params))
        ++ annotationTokens level returns ++ [space, mark .arrow, space]
        ++ block level (stmtParts (level + 1) body)

/-- The tokens of each expression. -/
def exprParts (level : Nat) : List Expr → List (List Token)
  | [] => []
  | e :: rest => e.tokens level :: exprParts level rest

/-- The line of each entry of an object literal. -/
def entryParts (level : Nat) : List (String × Expr) → List (List Token)
  | [] => []
  | (key, e) :: rest =>
      ([indent level, keyToken key, mark .colon, space] ++ e.tokens level ++ [mark .comma])
        :: entryParts level rest

/-- The value of a `return`, where one is given. -/
def returnTokens (level : Nat) : Option Expr → List Token
  | none => []
  | some e => space :: e.tokens level

/-- The tokens of a statement, from its indentation on. -/
def Stmt.tokens (level : Nat) : Stmt → List Token
  | .const name init =>
      [indent level, word "const", space, word name, space, mark .equals, space]
        ++ init.tokens level ++ [mark .semicolon]
  | .constArray names init =>
      [indent level, word "const", space]
        ++ bracketed (commaSeparated (names.map fun n => [word n]))
        ++ [space, mark .equals, space] ++ init.tokens level ++ [mark .semicolon]
  | .expr e => indent level :: (e.tokens level ++ [mark .semicolon])
  | .ret value => [indent level, word "return"] ++ returnTokens level value ++ [mark .semicolon]
  | .cond test thenBody elseBody =>
      [indent level, word "if", space] ++ parenthesised (test.tokens level) ++ [space]
        ++ block level (stmtParts (level + 1) thenBody)
        ++ (if elseBody.isEmpty then []
            else [space, word "else", space] ++ block level (stmtParts (level + 1) elseBody))
  | .throw value => [indent level, word "throw", space] ++ value.tokens level ++ [mark .semicolon]

/-- The lines of each statement. -/
def stmtParts (level : Nat) : List Stmt → List (List Token)
  | [] => []
  | s :: rest => s.tokens level :: stmtParts level rest

end

/-- The statements between braces. -/
def bodyTokens (level : Nat) (body : List Stmt) : List Token :=
  block level (stmtParts (level + 1) body)

/-- The parameters between parentheses. -/
def paramListTokens (level : Nat) (params : List Param) : List Token :=
  parenthesised (commaSeparated (paramParts level params))

/-- The line of an interface method. -/
def InterfaceMethod.tokens (level : Nat) (m : InterfaceMethod) : List Token :=
  [indent level, word m.name] ++ paramListTokens level m.params ++ [mark .colon, space]
    ++ m.returns.tokens level ++ [mark .semicolon]

/-- The keyword of a visibility, with its blank. -/
def Visibility.tokens : Visibility → List Token
  | .open => []
  | .closed => [word "private", space]

/-- The lines of a class member. -/
def Member.tokens (level : Nat) : Member → List Token
  | .property visibility name ty =>
      [indent level] ++ visibility.tokens ++ [word name, mark .colon, space] ++ ty.tokens level
        ++ [mark .semicolon]
  | .constructor params body =>
      [indent level, word "constructor"] ++ paramListTokens level params ++ [space]
        ++ bodyTokens level body
  | .method visibility name params returns body =>
      [indent level] ++ visibility.tokens ++ [word name] ++ paramListTokens level params
        ++ annotationTokens level returns ++ [space] ++ bodyTokens level body

/-- The members in order, with a blank line between two of them unless both are
fields. -/
def memberLines (level : Nat) : List Member → List Token
  | [] => []
  | [m] => m.tokens level
  | m :: next :: rest =>
      m.tokens level
        ++ (if m.isProperty && next.isProperty then [newline] else [newline, newline])
        ++ memberLines level (next :: rest)

/-- The keyword of an exported declaration, with its blank. -/
def exportTokens (exported : Bool) : List Token :=
  if exported then [word "export", space] else []

mutual

/-- The lines of a declaration. -/
def Decl.tokens (level : Nat) : Decl → List Token
  | .imports names source =>
      [indent level, word "import", space, mark .openBrace, space]
        ++ commaSeparated (names.map fun n => [word n])
        ++ [space, mark .closeBrace, space, word "from", space, quoted source, mark .semicolon]
  | .interface exported name typeParams methods =>
      [indent level] ++ exportTokens exported ++ [word "interface", space, word name]
        ++ typeParamTokens typeParams ++ [space]
        ++ linesBetweenBraces level
            (List.intercalate [newline] (methods.map (·.tokens (level + 1))))
  | .class exported name typeParams members =>
      [indent level] ++ exportTokens exported ++ [word "class", space, word name]
        ++ typeParamTokens typeParams ++ [space]
        ++ linesBetweenBraces level (memberLines (level + 1) members)
  | .function exported name typeParams params returns body =>
      [indent level] ++ exportTokens exported ++ [word "function", space, word name]
        ++ typeParamTokens typeParams ++ paramListTokens level params
        ++ annotationTokens level returns ++ [space] ++ bodyTokens level body
  | .const exported name init =>
      [indent level] ++ exportTokens exported
        ++ [word "const", space, word name, space, mark .equals, space] ++ init.tokens level
        ++ [mark .semicolon]
  | .namespace exported name body =>
      [indent level] ++ exportTokens exported ++ [word "namespace", space, word name, space]
        ++ linesBetweenBraces level
            (List.intercalate [newline, newline] (declParts (level + 1) body))

/-- The lines of each declaration. -/
def declParts (level : Nat) : List Decl → List (List Token)
  | [] => []
  | d :: rest => d.tokens level :: declParts level rest

end

/-- The tokens of a module: its declarations with a blank line between two of
them. -/
def Module.tokens (m : Module) : List Token :=
  List.intercalate [newline, newline] (declParts 0 m.decls) ++ [newline]

/-- The width of one level of indentation where none is asked for. -/
def defaultIndent : Nat := 4

/-- The text of a module, where one level of indentation is `width` blanks. -/
def Module.print (m : Module) (width : Nat) : String :=
  render width m.tokens

end AbiBindings.Script
