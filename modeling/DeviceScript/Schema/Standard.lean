import DeviceScript.Schema.Basic

/-! The built-in operations and control-flow keywords. -/

namespace DeviceScript.Schema

private def textParam (label : Text) (position : Int) (required : Bool) (rest : Bool) : ParamSpec :=
  ⟨label, position, required, .absent, .text, rest⟩

private def intParam (label : Text) (position : Int) (fallback : Value) : ParamSpec :=
  ⟨label, position, fallback == .absent, fallback, .int, false⟩

private def condition : FlowElem := .expression false

private def branchEnds : FlowElem := .terminators ["elseif", "else", "fi", "endif"]

def standard : Schema where
  operations :=
    [⟨"comment", .positional, [textParam "text" 0 true true]⟩,
     ⟨"setvar", .positional,
      [textParam "name" 0 true false, ⟨"value", 1, false, .text [], .text, true⟩]⟩,
     ⟨"unsetvar", .positional, [textParam "name" 0 true false]⟩,
     ⟨"incr", .positional, [textParam "name" 0 true false, intParam "by" 1 (.int 1)]⟩,
     ⟨"decr", .positional, [textParam "name" 0 true false, intParam "by" 1 (.int 1)]⟩,
     ⟨"sleep", .positional, [intParam "seconds" 0 .absent]⟩,
     ⟨"send", .options, [textParam "text" 0 true false]⟩,
     ⟨"expect", .options,
      [textParam "pattern" 0 true false, intParam "timeout" 1 (.int 10),
       intParam "clear" 2 (.int 0), textParam "var" 3 false false]⟩,
     ⟨"capture", .options, [textParam "var" 0 true false, textParam "pattern" 1 true false]⟩,
     ⟨"fail", .positional, [textParam "message" 0 true true]⟩,
     ⟨"stop", .positional, [textParam "reason" 0 false true]⟩]
  keywords :=
    [⟨"if", .ifBlock, [condition, .body, branchEnds], false, true⟩,
     ⟨"elseif", .elseIf, [condition, .body, branchEnds], false, false⟩,
     ⟨"else", .elseBranch, [.body, .terminators ["fi", "endif"]], false, false⟩,
     ⟨"fi", .fi, [], false, false⟩,
     ⟨"endif", .fi, [], false, false⟩,
     ⟨"while", .loop, [condition, .body, .terminators ["endwhile"]], false, true⟩,
     ⟨"endwhile", .endWhile, [.expression true], true, false⟩,
     ⟨"loop", .loop, [.body, .terminators ["until"]], false, true⟩,
     ⟨"until", .untilMet, [condition], true, false⟩]

end DeviceScript.Schema
