/-!
# Accounts

The users that a system knows, with their numbers and home folders.
-/

namespace Pkgset.Kernel

/-- A user of the system. -/
structure Account where
  name : String
  user : Nat
  group : Nat
  home : String
  shell : String

namespace Account

/-- The user that all processes belong to. -/
def root : Account := ⟨"root", 0, 0, "/root", "/bin/bash"⟩

/-- The shell of users that cannot log in. -/
def noShell : String := "/usr/sbin/nologin"

/-- The users, in the order in which the system lists them. -/
def all : List Account := [
  root,
  ⟨"daemon", 1, 1, "/usr/sbin", noShell⟩, ⟨"bin", 2, 2, "/bin", noShell⟩, ⟨"sys", 3, 3, "/dev", noShell⟩,
  ⟨"sync", 4, 65534, "/bin", "/bin/sync"⟩, ⟨"games", 5, 60, "/usr/games", noShell⟩,
  ⟨"man", 6, 12, "/var/cache/man", noShell⟩, ⟨"lp", 7, 7, "/var/spool/lpd", noShell⟩,
  ⟨"mail", 8, 8, "/var/mail", noShell⟩, ⟨"news", 9, 9, "/var/spool/news", noShell⟩,
  ⟨"uucp", 10, 10, "/var/spool/uucp", noShell⟩, ⟨"proxy", 13, 13, "/bin", noShell⟩,
  ⟨"www-data", 33, 33, "/var/www", noShell⟩, ⟨"backup", 34, 34, "/var/backups", noShell⟩,
  ⟨"list", 38, 38, "/var/list", noShell⟩, ⟨"irc", 39, 39, "/run/ircd", noShell⟩,
  ⟨"_apt", 42, 65534, "/nonexistent", noShell⟩, ⟨"nobody", 65534, 65534, "/nonexistent", noShell⟩]

/-- The user of a name. -/
def find? (name : String) : Option Account := all.find? (·.name = name)

/-- The line of a user in the list of users. -/
def line (account : Account) : String :=
  account.name ++ ":x:" ++ toString account.user ++ ":" ++ toString account.group ++ ":" ++ account.name ++ ":" ++
    account.home ++ ":" ++ account.shell ++ "\n"

end Account
end Pkgset.Kernel
