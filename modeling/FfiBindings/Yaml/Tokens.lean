import FfiBindings.Yaml.ScalarText

set_option autoImplicit false

namespace FfiBindings.Yaml

namespace Scan

def toNextToken : Scan Unit := do
  if (← get).index == 0 && (← peek).toNat == 0xFEFF then
    forward 1
  repeatFrom () fun _ => do
    skipWhile (· == ' ')
    if (← peek) == '#' then
      skipWhile fun c => !isBreakOrEnd c
    match ← lineBreak? with
    | some _ =>
      -- A block key may stand at the start of any line.
      if (← get).flowLevel == 0 then
        setKeyAllowed true
      return ((), true)
    | none => return ((), false)

def streamEnd : Scan Unit := do
  unwindIndent (-1)
  removePendingKey
  modify fun scanner => { scanner with keyAllowed := false, pendingKeys := [] }
  emit .streamEnd

def documentToken (read : Scan Token) : Scan Unit := do
  unwindIndent (-1)
  removePendingKey
  setKeyAllowed false
  emit (← read)

def openFlow (token : Token) : Scan Unit := do
  savePendingKey
  modify fun scanner => { scanner with flowLevel := scanner.flowLevel + 1, keyAllowed := true }
  forward 1
  emit token

def closeFlow (token : Token) : Scan Unit := do
  removePendingKey
  if (← get).flowLevel == 0 then malformed
  modify fun scanner => { scanner with flowLevel := scanner.flowLevel - 1, keyAllowed := false }
  forward 1
  emit token

def flowEntry : Scan Unit := do
  setKeyAllowed true
  removePendingKey
  forward 1
  emit .flowEntry

def openBlock (start : Token) : Scan Unit := do
  let scanner ← get
  if scanner.flowLevel == 0 then
    if !scanner.keyAllowed then malformed
    if ← addIndent scanner.column then
      emit start

def blockEntry : Scan Unit := do
  openBlock .blockSequenceStart
  setKeyAllowed true
  removePendingKey
  forward 1
  emit .blockEntry

def explicitKey : Scan Unit := do
  openBlock .blockMappingStart
  setKeyAllowed ((← get).flowLevel == 0)
  removePendingKey
  forward 1
  emit .key

def valueIndicator : Scan Unit := do
  let scanner ← get
  match scanner.pendingKeys.lookup scanner.flowLevel with
  | some key =>
    set { scanner with
      pendingKeys := scanner.pendingKeys.filter fun pending => pending.1 != scanner.flowLevel }
    -- The first key of a block opens it, at the key's own column.
    let opens ← if scanner.flowLevel == 0 then addIndent key.column else pure false
    insertTokens key.tokenNumber (if opens then [.blockMappingStart, .key] else [.key])
    setKeyAllowed false
  | none =>
    openBlock .blockMappingStart
    setKeyAllowed (scanner.flowLevel == 0)
    removePendingKey
  forward 1
  emit .value

def keyLike (read : Scan Token) : Scan Unit := do
  savePendingKey
  setKeyAllowed false
  emit (← read)

def blockText (folded : Bool) : Scan Unit := do
  setKeyAllowed true
  removePendingKey
  emit (← blockScalar folded)

def startsPlain (inFlow : Bool) (c next : Char) : Bool :=
  !(isGap c || "-?:,[]\x7b\x7d#&*!|>'\"%@`".toList.contains c) ||
    (!isGap next && (c == '-' || (!inFlow && (c == '?' || c == ':'))))

def token : Scan Bool := do
  toNextToken
  dropStaleKeys
  unwindIndent (← get).column
  let scanner ← get
  let c ← peek
  let next ← peekAt 1
  let inFlow := scanner.flowLevel != 0
  -- The order of the tests matters: indicators win over plain text.
  let separator ← atSeparator
  if c == endMark then
    streamEnd
    return false
  if scanner.column == 0 && c == '%' then
    documentToken directive
  else if scanner.column == 0 && separator then
    documentToken do
      forward 3
      return if c == '-' then .documentStart else .documentEnd
  else if c == '[' then openFlow .flowSequenceStart
  else if c == '\x7b' then openFlow .flowMappingStart
  else if c == ']' then closeFlow .flowSequenceEnd
  else if c == '\x7d' then closeFlow .flowMappingEnd
  else if c == ',' then flowEntry
  else if c == '-' && isGap next then blockEntry
  else if c == '?' && (inFlow || isGap next) then explicitKey
  else if c == ':' && (inFlow || isGap next) then valueIndicator
  else if c == '*' then keyLike do return .alias (← anchorName)
  else if c == '&' then keyLike do return .anchor (← anchorName)
  else if c == '!' then keyLike tag
  else if c == '|' && !inFlow then blockText false
  else if c == '>' && !inFlow then blockText true
  else if c == '\'' then keyLike (quotedScalar false)
  else if c == '"' then keyLike (quotedScalar true)
  else if startsPlain inFlow c next then keyLike plainScalar
  else malformed
  return true

end Scan

def isAllowed (c : Char) : Bool :=
  let code := c.toNat
  code == 0x09 || code == 0x0A || code == 0x0D || (0x20 ≤ code && code ≤ 0x7E) || code == 0x85 ||
    (0xA0 ≤ code && code ≤ 0xD7FF) || (0xE000 ≤ code && code ≤ 0xFFFD) || 0x10000 ≤ code

def tokens (text : List Char) : Except Fault (List Token) :=
  if text.all isAllowed then
    let scanning := Scan.repeatFrom () fun _ => do return ((), ← Scan.token)
    return (← scanning.run { rest := text }).2.tokens.toList
  else
    .error .malformed

end FfiBindings.Yaml
