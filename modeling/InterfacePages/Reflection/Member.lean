/-
The members of the classes of objects that a pattern can reach.

A class lists its own members; those of its ancestors come with them. Operations that the language of templates gives
to every class under a fixed name are slots, which are described once.
-/
import InterfacePages.Text.Basic

namespace InterfacePages

namespace Reflection

/-- a class of objects: texts, all objects, classes, functions bound to an object, operations bound to an object,
functions, operations, values computed on demand, values stored, functions of a class, whole numbers, nothing,
tuples, tables of members -/
inductive Class where
  | text
  | object
  | type
  | builtin
  | boundSlot
  | method
  | slot
  | computed
  | stored
  | classMethod
  | whole
  | nothing
  | tuple
  | table
  deriving DecidableEq, Repr

/-- a member of a class; an empty signature or description stands for none -/
inductive Member where
  | maker
  | slot (name : Text)
  | method (name signature description : Text)
  | ofClass (name signature description : Text)
  | static (name signature description : Text)
  | computed (name description : Text)
  | stored (name : Text)
  | constant (name content : Text)
  deriving DecidableEq, Repr

/-- the slots: name, signature, description -/
def slotTable : List (Text × Text × Text) := List.map (fun s => (s.1, s.2.1, s.2.2)) [
  ("__abs__", "($self, /)", "abs(self)"),
  ("__add__", "($self, value, /)", "Return self+value."),
  ("__and__", "($self, value, /)", "Return self&value."),
  ("__bool__", "($self, /)", "True if self else False"),
  ("__call__", "($self, /, *args, **kwargs)", "Call self as a function."),
  ("__contains__", "($self, key, /)", "Return key in self."),
  ("__delattr__", "($self, name, /)", "Implement delattr(self, name)."),
  ("__delete__", "($self, instance, /)", "Delete an attribute of instance."),
  ("__divmod__", "($self, value, /)", "Return divmod(self, value)."),
  ("__eq__", "($self, value, /)", "Return self==value."),
  ("__float__", "($self, /)", "float(self)"),
  ("__floordiv__", "($self, value, /)", "Return self//value."),
  ("__ge__", "($self, value, /)", "Return self>=value."),
  ("__get__", "($self, instance, owner=None, /)", "Return an attribute of instance, which is of type owner."),
  ("__getattribute__", "($self, name, /)", "Return getattr(self, name)."),
  ("__getitem__", "($self, key, /)", "Return self[key]."),
  ("__gt__", "($self, value, /)", "Return self>value."),
  ("__hash__", "($self, /)", "Return hash(self)."),
  ("__index__", "($self, /)",
    "Return self converted to an integer, if self is suitable for use as an index into a list."),
  ("__init__", "($self, /, *args, **kwargs)", "Initialize self.  See help(type(self)) for accurate signature."),
  ("__int__", "($self, /)", "int(self)"),
  ("__invert__", "($self, /)", "~self"),
  ("__ior__", "($self, value, /)", "Return self|=value."),
  ("__iter__", "($self, /)", "Implement iter(self)."),
  ("__le__", "($self, value, /)", "Return self<=value."),
  ("__len__", "($self, /)", "Return len(self)."),
  ("__lshift__", "($self, value, /)", "Return self<<value."),
  ("__lt__", "($self, value, /)", "Return self<value."),
  ("__mod__", "($self, value, /)", "Return self%value."),
  ("__mul__", "($self, value, /)", "Return self*value."),
  ("__ne__", "($self, value, /)", "Return self!=value."),
  ("__neg__", "($self, /)", "-self"),
  ("__or__", "($self, value, /)", "Return self|value."),
  ("__pos__", "($self, /)", "+self"),
  ("__pow__", "($self, value, mod=None, /)", "Return pow(self, value, mod)."),
  ("__radd__", "($self, value, /)", "Return value+self."),
  ("__rand__", "($self, value, /)", "Return value&self."),
  ("__rdivmod__", "($self, value, /)", "Return divmod(value, self)."),
  ("__repr__", "($self, /)", "Return repr(self)."),
  ("__rfloordiv__", "($self, value, /)", "Return value//self."),
  ("__rlshift__", "($self, value, /)", "Return value<<self."),
  ("__rmod__", "($self, value, /)", "Return value%self."),
  ("__rmul__", "($self, value, /)", "Return value*self."),
  ("__ror__", "($self, value, /)", "Return value|self."),
  ("__rpow__", "($self, value, mod=None, /)", "Return pow(value, self, mod)."),
  ("__rrshift__", "($self, value, /)", "Return value>>self."),
  ("__rshift__", "($self, value, /)", "Return self>>value."),
  ("__rsub__", "($self, value, /)", "Return value-self."),
  ("__rtruediv__", "($self, value, /)", "Return value/self."),
  ("__rxor__", "($self, value, /)", "Return value^self."),
  ("__set__", "($self, instance, value, /)", "Set an attribute of instance to value."),
  ("__setattr__", "($self, name, value, /)", "Implement setattr(self, name, value)."),
  ("__str__", "($self, /)", "Return str(self)."),
  ("__sub__", "($self, value, /)", "Return self-value."),
  ("__truediv__", "($self, value, /)", "Return self/value."),
  ("__xor__", "($self, value, /)", "Return self^value.")]

def Class.slotNames : Class → List String
  | .text => [
      "__repr__", "__hash__", "__str__", "__getattribute__", "__lt__", "__le__", "__eq__", "__ne__", "__gt__",
      "__ge__", "__iter__", "__mod__", "__rmod__", "__len__", "__getitem__", "__add__", "__mul__", "__rmul__",
      "__contains__"]
  | .object => [
      "__repr__", "__hash__", "__str__", "__getattribute__", "__setattr__", "__delattr__", "__lt__", "__le__",
      "__eq__", "__ne__", "__gt__", "__ge__", "__init__"]
  | .type => [
      "__repr__", "__call__", "__getattribute__", "__setattr__", "__delattr__", "__init__", "__or__", "__ror__"]
  | .builtin => [
      "__repr__", "__hash__", "__call__", "__getattribute__", "__lt__", "__le__", "__eq__", "__ne__", "__gt__",
      "__ge__"]
  | .boundSlot => [
      "__repr__", "__hash__", "__call__", "__getattribute__", "__lt__", "__le__", "__eq__", "__ne__", "__gt__",
      "__ge__"]
  | .method => [
      "__repr__", "__call__", "__getattribute__", "__get__"]
  | .slot => [
      "__repr__", "__call__", "__getattribute__", "__get__"]
  | .computed => [
      "__repr__", "__getattribute__", "__get__", "__set__", "__delete__"]
  | .stored => [
      "__repr__", "__getattribute__", "__get__", "__set__", "__delete__"]
  | .classMethod => [
      "__repr__", "__call__", "__getattribute__", "__get__"]
  | .whole => [
      "__repr__", "__hash__", "__getattribute__", "__lt__", "__le__", "__eq__", "__ne__", "__gt__", "__ge__",
      "__add__", "__radd__", "__sub__", "__rsub__", "__mul__", "__rmul__", "__mod__", "__rmod__", "__divmod__",
      "__rdivmod__", "__pow__", "__rpow__", "__neg__", "__pos__", "__abs__", "__bool__", "__invert__", "__lshift__",
      "__rlshift__", "__rshift__", "__rrshift__", "__and__", "__rand__", "__xor__", "__rxor__", "__or__", "__ror__",
      "__int__", "__float__", "__floordiv__", "__rfloordiv__", "__truediv__", "__rtruediv__", "__index__"]
  | .nothing => [
      "__repr__", "__bool__"]
  | .tuple => [
      "__repr__", "__hash__", "__getattribute__", "__lt__", "__le__", "__eq__", "__ne__", "__gt__", "__ge__",
      "__iter__", "__len__", "__getitem__", "__add__", "__mul__", "__rmul__", "__contains__"]
  | .table => [
      "__repr__", "__str__", "__getattribute__", "__lt__", "__le__", "__eq__", "__ne__", "__gt__", "__ge__",
      "__iter__", "__or__", "__ror__", "__ior__", "__len__", "__getitem__", "__contains__"]

def Class.slots (c : Class) : List Text := c.slotNames.map Text.ofString

def textMembers : List Member := [
  .maker,
  .method "encode" "($self, /, encoding='utf-8', errors='strict')" (
    "Encode the string using the codec registered for encoding.\n\n  encoding\n    The encoding in which to " ++
    "encode the string.\n  errors\n    The error handling scheme to use for encoding errors.\n    The default " ++
    "is 'strict' meaning that encoding errors raise a\n    UnicodeEncodeError.  Other possible values are " ++
    "'ignore', 'replace' and\n    'xmlcharrefreplace' as well as any other name registered with\n    " ++
    "codecs.register_error that can handle UnicodeEncodeErrors."),
  .method "replace" "($self, old, new, count=-1, /)" (
    "Return a copy with all occurrences of substring old replaced by new.\n\n  count\n    Maximum number of " ++
    "occurrences to replace.\n    -1 (the default value) means replace all occurrences.\n\nIf the optional " ++
    "argument count is given, only the first count occurrences are\nreplaced."),
  .method "split" "($self, /, sep=None, maxsplit=-1)" (
    "Return a list of the substrings in the string, using sep as the separator string.\n\n  sep\n    The " ++
    "separator used to split the string.\n\n    When set to None (the default value), will split on any " ++
    "whitespace\n    character (including \\n \\r \\t \\f and spaces) and will discard\n    empty strings from " ++
    "the result.\n  maxsplit\n    Maximum number of splits.\n    -1 (the default value) means no limit.\n\n" ++
    "Splitting starts at the front of the string and works to the end.\n\nNote, str.split() is mainly useful " ++
    "for data that has been intentionally\ndelimited.  With natural text that includes punctuation, consider " ++
    "using\nthe regular expression module."),
  .method "rsplit" "($self, /, sep=None, maxsplit=-1)" (
    "Return a list of the substrings in the string, using sep as the separator string.\n\n  sep\n    The " ++
    "separator used to split the string.\n\n    When set to None (the default value), will split on any " ++
    "whitespace\n    character (including \\n \\r \\t \\f and spaces) and will discard\n    empty strings from " ++
    "the result.\n  maxsplit\n    Maximum number of splits.\n    -1 (the default value) means no limit.\n\n" ++
    "Splitting starts at the end of the string and works to the front."),
  .method "join" "($self, iterable, /)" (
    "Concatenate any number of strings.\n\nThe string whose method is called is inserted in between each given " ++
    "string.\nThe result is returned as a new string.\n\nExample: '.'.join(['ab', 'pq', 'rs']) -> 'ab.pq.rs'"),
  .method "capitalize" "($self, /)" (
    "Return a capitalized version of the string.\n\nMore specifically, make the first character have upper case " ++
    "and the rest lower\ncase."),
  .method "casefold" "($self, /)" "Return a version of the string suitable for caseless comparisons.",
  .method "title" "($self, /)" (
    "Return a version of the string where each word is titlecased.\n\nMore specifically, words start with " ++
    "uppercased characters and all remaining\ncased characters have lower case."),
  .method "center" "($self, width, fillchar=' ', /)" (
    "Return a centered string of length width.\n\nPadding is done using the specified fill character (default " ++
    "is a space)."),
  .method "count" "" (
    "S.count(sub[, start[, end]]) -> int\n\nReturn the number of non-overlapping occurrences of substring sub " ++
    "in\nstring S[start:end].  Optional arguments start and end are\ninterpreted as in slice notation."),
  .method "expandtabs" "($self, /, tabsize=8)" (
    "Return a copy where all tab characters are expanded using spaces.\n\nIf tabsize is not given, a tab size " ++
    "of 8 characters is assumed."),
  .method "find" "" (
    "S.find(sub[, start[, end]]) -> int\n\nReturn the lowest index in S where substring sub is found,\nsuch " ++
    "that sub is contained within S[start:end].  Optional\narguments start and end are interpreted as in slice " ++
    "notation.\n\nReturn -1 on failure."),
  .method "partition" "($self, sep, /)" (
    "Partition the string into three parts using the given separator.\n\nThis will search for the separator in " ++
    "the string.  If the separator is found,\nreturns a 3-tuple containing the part before the separator, the " ++
    "separator\nitself, and the part after it.\n\nIf the separator is not found, returns a 3-tuple containing " ++
    "the original string\nand two empty strings."),
  .method "index" "" (
    "S.index(sub[, start[, end]]) -> int\n\nReturn the lowest index in S where substring sub is found,\nsuch " ++
    "that sub is contained within S[start:end].  Optional\narguments start and end are interpreted as in slice " ++
    "notation.\n\nRaises ValueError when the substring is not found."),
  .method "ljust" "($self, width, fillchar=' ', /)" (
    "Return a left-justified string of length width.\n\nPadding is done using the specified fill character " ++
    "(default is a space)."),
  .method "lower" "($self, /)" "Return a copy of the string converted to lowercase.",
  .method "lstrip" "($self, chars=None, /)" (
    "Return a copy of the string with leading whitespace removed.\n\nIf chars is given and not None, remove " ++
    "characters in chars instead."),
  .method "rfind" "" (
    "S.rfind(sub[, start[, end]]) -> int\n\nReturn the highest index in S where substring sub is found,\nsuch " ++
    "that sub is contained within S[start:end].  Optional\narguments start and end are interpreted as in slice " ++
    "notation.\n\nReturn -1 on failure."),
  .method "rindex" "" (
    "S.rindex(sub[, start[, end]]) -> int\n\nReturn the highest index in S where substring sub is found,\nsuch " ++
    "that sub is contained within S[start:end].  Optional\narguments start and end are interpreted as in slice " ++
    "notation.\n\nRaises ValueError when the substring is not found."),
  .method "rjust" "($self, width, fillchar=' ', /)" (
    "Return a right-justified string of length width.\n\nPadding is done using the specified fill character " ++
    "(default is a space)."),
  .method "rstrip" "($self, chars=None, /)" (
    "Return a copy of the string with trailing whitespace removed.\n\nIf chars is given and not None, remove " ++
    "characters in chars instead."),
  .method "rpartition" "($self, sep, /)" (
    "Partition the string into three parts using the given separator.\n\nThis will search for the separator in " ++
    "the string, starting at the end. If\nthe separator is found, returns a 3-tuple containing the part before " ++
    "the\nseparator, the separator itself, and the part after it.\n\nIf the separator is not found, returns a " ++
    "3-tuple containing two empty strings\nand the original string."),
  .method "splitlines" "($self, /, keepends=False)" (
    "Return a list of the lines in the string, breaking at line boundaries.\n\nLine breaks are not included in " ++
    "the resulting list unless keepends is given and\ntrue."),
  .method "strip" "($self, chars=None, /)" (
    "Return a copy of the string with leading and trailing whitespace removed.\n\nIf chars is given and not " ++
    "None, remove characters in chars instead.")] ++ [
  .method "swapcase" "($self, /)" (
    "Convert uppercase characters to lowercase and lowercase characters to uppercase."),
  .method "translate" "($self, table, /)" (
    "Replace each character in the string using the given translation table.\n\n  table\n    Translation table, " ++
    "which must be a mapping of Unicode ordinals to\n    Unicode ordinals, strings, or None.\n\nThe table must " ++
    "implement lookup/indexing via __getitem__, for instance a\ndictionary or list.  If this operation raises " ++
    "LookupError, the character is\nleft untouched.  Characters mapped to None are deleted."),
  .method "upper" "($self, /)" "Return a copy of the string converted to uppercase.",
  .method "startswith" "" (
    "S.startswith(prefix[, start[, end]]) -> bool\n\nReturn True if S starts with the specified prefix, False " ++
    "otherwise.\nWith optional start, test S beginning at that position.\nWith optional end, stop comparing S " ++
    "at that position.\nprefix can also be a tuple of strings to try."),
  .method "endswith" "" (
    "S.endswith(suffix[, start[, end]]) -> bool\n\nReturn True if S ends with the specified suffix, False " ++
    "otherwise.\nWith optional start, test S beginning at that position.\nWith optional end, stop comparing S " ++
    "at that position.\nsuffix can also be a tuple of strings to try."),
  .method "removeprefix" "($self, prefix, /)" (
    "Return a str with the given prefix string removed if present.\n\nIf the string starts with the prefix " ++
    "string, return string[len(prefix):].\nOtherwise, return a copy of the original string."),
  .method "removesuffix" "($self, suffix, /)" (
    "Return a str with the given suffix string removed if present.\n\nIf the string ends with the suffix string " ++
    "and that suffix is not empty,\nreturn string[:-len(suffix)]. Otherwise, return a copy of the original\n" ++
    "string."),
  .method "isascii" "($self, /)" (
    "Return True if all characters in the string are ASCII, False otherwise.\n\nASCII characters have code " ++
    "points in the range U+0000-U+007F.\nEmpty string is ASCII too."),
  .method "islower" "($self, /)" (
    "Return True if the string is a lowercase string, False otherwise.\n\nA string is lowercase if all cased " ++
    "characters in the string are lowercase and\nthere is at least one cased character in the string."),
  .method "isupper" "($self, /)" (
    "Return True if the string is an uppercase string, False otherwise.\n\nA string is uppercase if all cased " ++
    "characters in the string are uppercase and\nthere is at least one cased character in the string."),
  .method "istitle" "($self, /)" (
    "Return True if the string is a title-cased string, False otherwise.\n\nIn a title-cased string, upper- and " ++
    "title-case characters may only\nfollow uncased characters and lowercase characters only cased ones."),
  .method "isspace" "($self, /)" (
    "Return True if the string is a whitespace string, False otherwise.\n\nA string is whitespace if all " ++
    "characters in the string are whitespace and there\nis at least one character in the string."),
  .method "isdecimal" "($self, /)" (
    "Return True if the string is a decimal string, False otherwise.\n\nA string is a decimal string if all " ++
    "characters in the string are decimal and\nthere is at least one character in the string."),
  .method "isdigit" "($self, /)" (
    "Return True if the string is a digit string, False otherwise.\n\nA string is a digit string if all " ++
    "characters in the string are digits and there\nis at least one character in the string."),
  .method "isnumeric" "($self, /)" (
    "Return True if the string is a numeric string, False otherwise.\n\nA string is numeric if all characters " ++
    "in the string are numeric and there is at\nleast one character in the string."),
  .method "isalpha" "($self, /)" (
    "Return True if the string is an alphabetic string, False otherwise.\n\nA string is alphabetic if all " ++
    "characters in the string are alphabetic and there\nis at least one character in the string."),
  .method "isalnum" "($self, /)" (
    "Return True if the string is an alpha-numeric string, False otherwise.\n\nA string is alpha-numeric if all " ++
    "characters in the string are alpha-numeric and\nthere is at least one character in the string."),
  .method "isidentifier" "($self, /)" (
    "Return True if the string is a valid Python identifier, False otherwise.\n\nCall keyword.iskeyword(s) to " ++
    "test whether string s is a reserved identifier,\nsuch as \"def\" or \"class\"."),
  .method "isprintable" "($self, /)" (
    "Return True if the string is printable, False otherwise.\n\nA string is printable if all of its characters " ++
    "are considered printable in\nrepr() or if it is empty."),
  .method "zfill" "($self, width, /)" (
    "Pad a numeric string with zeros on the left, to fill a field of the given width.\n\nThe string is never " ++
    "truncated."),
  .method "format" "" (
    "S.format(*args, **kwargs) -> str\n\nReturn a formatted version of S, using substitutions from args and " ++
    "kwargs.\nThe substitutions are identified by braces ('\x7b' and '\x7d')."),
  .method "format_map" "" (
    "S.format_map(mapping) -> str\n\nReturn a formatted version of S, using substitutions from mapping.\nThe " ++
    "substitutions are identified by braces ('\x7b' and '\x7d')."),
  .method "__format__" "($self, format_spec, /)" (
    "Return a formatted version of the string as described by format_spec."),
  .static "maketrans" "(x, y=<unrepresentable>, z=<unrepresentable>, /)" (
    "Return a translation table usable for str.translate().\n\nIf there is only one argument, it must be a " ++
    "dictionary mapping Unicode\nordinals (integers) or characters to Unicode ordinals, strings or None.\n" ++
    "Character keys will be then converted to ordinals.\nIf there are two arguments, they must be strings of " ++
    "equal length, and\nin the resulting dictionary, each character in x will be mapped to the\ncharacter at " ++
    "the same position in y. If there is a third argument, it\nmust be a string, whose characters will be " ++
    "mapped to None in the result."),
  .method "__sizeof__" "($self, /)" "Return the size of the string in memory, in bytes.",
  .method "__getnewargs__" "" "",
  .constant "__doc__" (
    "str(object='') -> str\nstr(bytes_or_buffer[, encoding[, errors]]) -> str\n\nCreate a new string object " ++
    "from the given object. If encoding or\nerrors is specified, then the object must expose a data buffer\n" ++
    "that will be decoded using the given encoding and error handler.\nOtherwise, returns the result of " ++
    "object.__str__() (if defined)\nor repr(object).\nencoding defaults to sys.getdefaultencoding().\nerrors " ++
    "defaults to 'strict'.")]

def Class.others : Class → List Member
  | .text => textMembers
  | .object => [
      .maker,
      .method "__reduce_ex__" "($self, protocol, /)" "Helper for pickle.",
      .method "__reduce__" "($self, /)" "Helper for pickle.",
      .method "__getstate__" "($self, /)" "Helper for pickle.",
      .ofClass "__subclasshook__" "" (
        "Abstract classes can override this to customize issubclass().\n\nThis is invoked early on by " ++
        "abc.ABCMeta.__subclasscheck__().\nIt should return True, False or NotImplemented.  If it returns\n" ++
        "NotImplemented, the normal algorithm is used.  Otherwise, it\noverrides the normal algorithm (and the " ++
        "outcome is cached).\n"),
      .ofClass "__init_subclass__" "" (
        "This method is called when a class is subclassed.\n\nThe default implementation does nothing. It may be\n" ++
        "overridden to extend subclasses.\n"),
      .method "__format__" "($self, format_spec, /)" "Default object formatter.",
      .method "__sizeof__" "($self, /)" "Size of object in memory, in bytes.",
      .method "__dir__" "($self, /)" "Default dir() implementation.",
      .computed "__class__" "the object's class",
      .constant "__doc__" (
        "The base class of the class hierarchy.\n\nWhen called, it accepts no arguments and returns a new " ++
        "featureless\ninstance that has no instance attributes and cannot be given any.\n")]
  | .type => [
      .maker,
      .method "mro" "($self, /)" "Return a type's method resolution order.",
      .method "__subclasses__" "($self, /)" "Return a list of immediate subclasses.",
      .ofClass "__prepare__" "" "__prepare__() -> dict\nused to create the namespace for the class statement",
      .method "__instancecheck__" "($self, instance, /)" "Check if an object is an instance.",
      .method "__subclasscheck__" "($self, subclass, /)" "Check if a class is a subclass.",
      .method "__dir__" "($self, /)" "Specialized __dir__ implementation for types.",
      .method "__sizeof__" "($self, /)" "Return memory consumption of the type object.",
      .stored "__basicsize__",
      .stored "__itemsize__",
      .stored "__flags__",
      .stored "__weakrefoffset__",
      .stored "__base__",
      .stored "__dictoffset__",
      .stored "__mro__",
      .computed "__name__" "",
      .computed "__qualname__" "",
      .computed "__bases__" "",
      .computed "__module__" "",
      .computed "__abstractmethods__" "",
      .computed "__dict__" "",
      .computed "__doc__" "",
      .computed "__text_signature__" "",
      .computed "__annotations__" ""]
  | .builtin => [
      .method "__reduce__" "" "",
      .stored "__module__",
      .computed "__doc__" "",
      .computed "__name__" "",
      .computed "__qualname__" "",
      .computed "__self__" "",
      .computed "__text_signature__" ""]
  | .boundSlot => [
      .method "__reduce__" "" "",
      .stored "__self__",
      .computed "__objclass__" "",
      .computed "__name__" "",
      .computed "__qualname__" "",
      .computed "__doc__" "",
      .computed "__text_signature__" ""]
  | .method => [
      .method "__reduce__" "" "",
      .stored "__objclass__",
      .stored "__name__",
      .computed "__doc__" "",
      .computed "__qualname__" "",
      .computed "__text_signature__" ""]
  | .slot => [
      .method "__reduce__" "" "",
      .stored "__objclass__",
      .stored "__name__",
      .computed "__doc__" "",
      .computed "__qualname__" "",
      .computed "__text_signature__" ""]
  | .computed => [
      .stored "__objclass__",
      .stored "__name__",
      .computed "__doc__" "",
      .computed "__qualname__" ""]
  | .stored => [
      .method "__reduce__" "" "",
      .stored "__objclass__",
      .stored "__name__",
      .computed "__doc__" "",
      .computed "__qualname__" ""]
  | .classMethod => [
      .stored "__objclass__",
      .stored "__name__",
      .computed "__doc__" "",
      .computed "__qualname__" "",
      .computed "__text_signature__" ""]
  | .whole => [
      .maker,
      .method "conjugate" "" "Returns self, the complex conjugate of any int.",
      .method "bit_length" "($self, /)" (
        "Number of bits necessary to represent self in binary.\n\n>>> bin(37)\n'0b100101'\n>>> (37).bit_length()\n6"),
      .method "bit_count" "($self, /)" (
        "Number of ones in the binary representation of the absolute value of self.\n\nAlso known as the population " ++
        "count.\n\n>>> bin(13)\n'0b1101'\n>>> (13).bit_count()\n3"),
      .method "to_bytes" "($self, /, length=1, byteorder='big', *, signed=False)" (
        "Return an array of bytes representing an integer.\n\n  length\n    Length of bytes object to use.  An " ++
        "OverflowError is raised if the\n    integer is not representable with the given number of bytes.  Default\n" ++
        "    is length 1.\n  byteorder\n    The byte order used to represent the integer.  If byteorder is 'big',\n " ++
        "   the most significant byte is at the beginning of the byte array.  If\n    byteorder is 'little', the " ++
        "most significant byte is at the end of the\n    byte array.  To request the native byte order of the host " ++
        "system, use\n    `sys.byteorder' as the byte order value.  Default is to use 'big'.\n  signed\n    " ++
        "Determines whether two's complement is used to represent the integer.\n    If signed is False and a " ++
        "negative integer is given, an OverflowError\n    is raised."),
      .ofClass "from_bytes" "($type, /, bytes, byteorder='big', *, signed=False)" (
        "Return the integer represented by the given array of bytes.\n\n  bytes\n    Holds the array of bytes to " ++
        "convert.  The argument must either\n    support the buffer protocol or be an iterable object producing " ++
        "bytes.\n    Bytes and bytearray are examples of built-in objects that support the\n    buffer protocol.\n  " ++
        "byteorder\n    The byte order used to represent the integer.  If byteorder is 'big',\n    the most " ++
        "significant byte is at the beginning of the byte array.  If\n    byteorder is 'little', the most " ++
        "significant byte is at the end of the\n    byte array.  To request the native byte order of the host " ++
        "system, use\n    `sys.byteorder' as the byte order value.  Default is to use 'big'.\n  signed\n    " ++
        "Indicates whether two's complement is used to represent the integer."),
      .method "as_integer_ratio" "($self, /)" (
        "Return integer ratio.\n\nReturn a pair of integers, whose ratio is exactly equal to the original int\nand " ++
        "with a positive denominator.\n\n>>> (10).as_integer_ratio()\n(10, 1)\n>>> (-10).as_integer_ratio()\n(-10, " ++
        "1)\n>>> (0).as_integer_ratio()\n(0, 1)"),
      .method "__trunc__" "" "Truncating an Integral returns itself.",
      .method "__floor__" "" "Flooring an Integral returns itself.",
      .method "__ceil__" "" "Ceiling of an Integral returns itself.",
      .method "__round__" "($self, ndigits=<unrepresentable>, /)" (
        "Rounding an Integral returns itself.\n\nRounding with an ndigits argument also returns an integer."),
      .method "__getnewargs__" "($self, /)" "",
      .method "__format__" "($self, format_spec, /)" "",
      .method "__sizeof__" "($self, /)" "Returns size in memory, in bytes.",
      .computed "real" "the real part of a complex number",
      .computed "imag" "the imaginary part of a complex number",
      .computed "numerator" "the numerator of a rational number in lowest terms",
      .computed "denominator" "the denominator of a rational number in lowest terms",
      .constant "__doc__" (
        "int([x]) -> integer\nint(x, base=10) -> integer\n\nConvert a number or string to an integer, or return 0 " ++
        "if no arguments\nare given.  If x is a number, return x.__int__().  For floating point\nnumbers, this " ++
        "truncates towards zero.\n\nIf x is not a number or if base is given, then x must be a string,\nbytes, or " ++
        "bytearray instance representing an integer literal in the\ngiven base.  The literal can be preceded by '+' " ++
        "or '-' and be surrounded\nby whitespace.  The base defaults to 10.  Valid bases are 0 and 2-36.\nBase 0 " ++
        "means to interpret the base from the string as an integer literal.\n>>> int('0b100', base=0)\n4")]
  | .nothing => [
      .maker,
      .constant "__doc__" ""]
  | .tuple => [
      .maker,
      .method "__getnewargs__" "($self, /)" "",
      .method "index" "($self, value, start=0, stop=sys.maxsize, /)" (
        "Return first index of value.\n\nRaises ValueError if the value is not present."),
      .method "count" "($self, value, /)" "Return number of occurrences of value.",
      .ofClass "__class_getitem__" "" "See PEP 585",
      .constant "__doc__" (
        "Built-in immutable sequence.\n\nIf no argument is given, the constructor returns an empty tuple.\nIf " ++
        "iterable is specified the tuple is initialized from iterable's items.\n\nIf the argument is a tuple, the " ++
        "return value is the same object.")]
  | .table => [
      .maker,
      .method "get" "" "D.get(k[,d]) -> D[k] if k in D, else d.  d defaults to None.",
      .method "keys" "" "D.keys() -> a set-like object providing a view on D's keys",
      .method "values" "" "D.values() -> an object providing a view on D's values",
      .method "items" "" "D.items() -> a set-like object providing a view on D's items",
      .method "copy" "" "D.copy() -> a shallow copy of D",
      .ofClass "__class_getitem__" "" "See PEP 585",
      .method "__reversed__" "" "D.__reversed__() -> reverse iterator",
      .constant "__doc__" "",
      .constant "__hash__" ""]

end Reflection

end InterfacePages
