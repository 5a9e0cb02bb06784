import LineShell.Class
import LineShell.Text.Margin

/-! # Documentation — what the help system says about a handler

    A function without documentation of its own has that of the same name
    further up: for a function of the objects as its class sees it, for a
    function of a class as the class that defines it sees it.  Plain data
    has the documentation of its kind, whatever its name was before. -/

namespace LineShell

open LineShell.Text

/-- The documentation of the kinds of values that can be written down. -/
def Value.kindDoc? : Value → Option String
  | .bool _ => some
      ("bool(x) -> bool\n\n"
        ++ "Returns True when the argument x is true, False otherwise.\n"
        ++ "The builtins True and False are the only two instances of the class bool.\n"
        ++ "The class bool is a subclass of the class int, and cannot be subclassed.")
  | .int _ => some
      ("int([x]) -> integer\nint(x, base=10) -> integer\n\n"
        ++ "Convert a number or string to an integer, or return 0 if no arguments\n"
        ++ "are given.  If x is a number, return x.__int__().  For floating point\n"
        ++ "numbers, this truncates towards zero.\n\n"
        ++ "If x is not a number or if base is given, then x must be a string,\n"
        ++ "bytes, or bytearray instance representing an integer literal in the\n"
        ++ "given base.  The literal can be preceded by '+' or '-' and be surrounded\n"
        ++ "by whitespace.  The base defaults to 10.  Valid bases are 0 and 2-36.\n"
        ++ "Base 0 means to interpret the base from the string as an integer literal.\n"
        ++ ">>> int('0b100', base=0)\n4")
  | .real _ => some
      "Convert a string or number to a floating point number, if possible."
  | .text _ => some
      ("str(object='') -> str\n"
        ++ "str(bytes_or_buffer[, encoding[, errors]]) -> str\n\n"
        ++ "Create a new string object from the given object. If encoding or\n"
        ++ "errors is specified, then the object must expose a data buffer\n"
        ++ "that will be decoded using the given encoding and error handler.\n"
        ++ "Otherwise, returns the result of object.__str__() (if defined)\n"
        ++ "or repr(object).\n"
        ++ "encoding defaults to sys.getdefaultencoding().\n"
        ++ "errors defaults to 'strict'.")
  | .list _ => some
      ("Built-in mutable sequence.\n\n"
        ++ "If no argument is given, the constructor creates a new empty list.\n"
        ++ "The argument must be an iterable if specified.")
  | .map _ => some
      ("dict() -> new empty dictionary\n"
        ++ "dict(mapping) -> new dictionary initialized from a mapping object's\n"
        ++ "    (key, value) pairs\n"
        ++ "dict(iterable) -> new dictionary initialized as if via:\n"
        ++ "    d = \x7b\x7d\n    for k, v in iterable:\n"
        ++ "        d[k] = v\n"
        ++ "dict(**kwargs) -> new dictionary initialized with the name=value pairs\n"
        ++ "    in the keyword argument list.  For example:  dict(one=1, two=2)")
  | _ => none

/-- The documentation of a member as it was written. -/
def Bound.writtenDoc? (b : Bound) : Option String :=
  match b.definitions with
  | .function f :: _ =>
      match f.doc with
      | some doc => some doc
      | none =>
          if f.isStatic then
            (b.owner.definer? b.name).bind fun c => c.inheritedDoc? b.name
          else b.owner.inheritedDoc? b.name
  | .data v :: _ => v.kindDoc?
  | [] => none

/-- The documentation of a member in plain form. -/
def Bound.doc? (b : Bound) : Option String :=
  b.writtenDoc?.map plainDoc

/-- Does a member have documentation that says something? -/
def Bound.hasDoc (b : Bound) : Bool :=
  b.doc?.any fun doc => !doc.isEmpty

end LineShell
