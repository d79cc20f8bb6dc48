import BackupClient.Shell.Syntax

/-!
Commands inside of words.

Before a command is carried out the commands inside of its words are, one after the other, and what each
of them writes takes its place.
-/

namespace BackupClient.Shell

namespace Part

def source? : Part → Option (List Char)
  | .command source _ => some source
  | _ => none

def plug (output : List Char) : Part → Part
  | .command _ quoted => .captured output quoted
  | part => part

def isCaptured : Part → Bool
  | .captured _ _ => true
  | _ => false

end Part

def changeFirst {α : Type} (asks : α → Bool) (change : α → α) : List α → List α
  | [] => []
  | item :: rest => if asks item then change item :: rest else item :: changeFirst asks change rest

def wordSource? (word : Word) : Option (List Char) :=
  word.findSome? Part.source?

def plugWord (output : List Char) (word : Word) : Word :=
  changeFirst (fun part => part.source?.isSome) (Part.plug output) word

def plugWords (output : List Char) (words : List Word) : List Word :=
  changeFirst (fun word => (wordSource? word).isSome) (plugWord output) words

namespace RedirectTarget

def word : RedirectTarget → Word
  | .source path => path
  | .sink path _ => path
  | .copy descriptor => descriptor
  | .document text => text

def withWord (target : RedirectTarget) (word : Word) : RedirectTarget :=
  match target with
  | .source _ => .source word
  | .sink _ appending => .sink word appending
  | .copy _ => .copy word
  | .document _ => .document word

end RedirectTarget

def redirectsSource? (redirects : List Redirect) : Option (List Char) :=
  redirects.findSome? fun redirect => wordSource? redirect.target.word

def plugRedirects (output : List Char) (redirects : List Redirect) : List Redirect :=
  changeFirst (fun redirect => (wordSource? redirect.target.word).isSome)
    (fun redirect =>
      { redirect with target := redirect.target.withWord (plugWord output redirect.target.word) })
    redirects

namespace SimpleCommand

def source? (command : SimpleCommand) : Option (List Char) :=
  (command.words.findSome? wordSource?).or
    ((command.assignments.findSome? fun (_, word) => wordSource? word).or
      (redirectsSource? command.redirects))

def plug (output : List Char) (command : SimpleCommand) : SimpleCommand :=
  if (command.words.findSome? wordSource?).isSome then
    { command with words := plugWords output command.words }
  else if (command.assignments.findSome? fun (_, word) => wordSource? word).isSome then
    { command with
      assignments :=
        changeFirst (fun (_, word) => (wordSource? word).isSome)
          (fun (name, word) => (name, plugWord output word)) command.assignments }
  else { command with redirects := plugRedirects output command.redirects }

def hasCaptured (command : SimpleCommand) : Bool :=
  command.assignments.any fun (_, word) => word.any Part.isCaptured

end SimpleCommand

namespace Command

def source? : Command → Option (List Char)
  | .simple command => command.source?
  | .redirected _ redirects => redirectsSource? redirects
  | .each _ (some items) _ => items.findSome? wordSource?
  | .choice subject _ => wordSource? subject
  | _ => none

def plug (output : List Char) : Command → Command
  | .simple command => .simple (command.plug output)
  | .redirected body redirects => .redirected body (plugRedirects output redirects)
  | .each name (some items) body => .each name (some (plugWords output items)) body
  | .choice subject arms => .choice (plugWord output subject) arms
  | command => command

end Command

end BackupClient.Shell
