import Readiness.Rulebook.Basic

/-!
# Rulebook — Standard

The checklist that is used where a repository has no rulebook of its own.
-/

namespace Readiness.Rulebook

private def step (name title : String) (shortCircuit : Bool) (checks : List CheckDef) : StepDef :=
  ⟨name, some title, none, shortCircuit, checks⟩

private def check (description : String) (predicate : Predicate) : CheckDef :=
  ⟨description, none, predicate⟩

private def checkFor (stack : Stack) (description : String) (predicate : Predicate) : CheckDef :=
  ⟨description, some stack, predicate⟩

/-- The production readiness checklist. -/
def standard : Rulebook where
  settings := .standard
  steps :=
    [ step "git-setup" "Git repository setup" false
        [ check "Remote 'origin' configured" (.gitRemote "origin"),
          check "README present" (.fileExists "README.md"),
          check "Ignore rules present" (.fileExists ".gitignore"),
          check "Handshake commit recorded" (.handshakeCommit "[shipcheck:git-setup]") ],
      step "ci" "Continuous integration" true
        [ check "Workflow file present" (.globMatches ".github/workflows/*.y*ml"),
          check "CI workflow defines jobs" (.yamlKey ".github/workflows/ci.yml" "jobs"),
          check "Latest default-branch CI run succeeded" (.ciGreen none) ],
      step "container" "Containerization" false
        [ check "Container build file present" (.anyFileExists ["Dockerfile", "Containerfile"]),
          check "Container build context filtered" (.fileExists ".dockerignore"),
          check "Image runs as a non-root user"
            (.fileContains "Dockerfile" "(?m)^\\s*USER\\s+\\S+") ],
      step "tests" "Automated tests" true
        [ check "Test directory present" (.dirExists "tests"),
          checkFor .python "pytest configured"
            (.tomlKey "pyproject.toml" "tool.pytest.ini_options"),
          checkFor .node "Test script defined" (.jsonKey "package.json" "scripts.test"),
          check "CI runs the test job" (.ciJob "test" none) ],
      step "pre-commit" "Pre-commit hooks" false
        [ check "Hook configuration present" (.fileExists ".pre-commit-config.yaml"),
          check "Hook repositories declared" (.yamlKey ".pre-commit-config.yaml" "repos"),
          check "Hooks installed in the clone" (.fileExists ".git/hooks/pre-commit") ],
      step "governance" "Governance scripts" false
        [ check "Governance scripts present" (.dirExists "scripts/governance"),
          check "Governance baselines recorded" (.dirExists ".memory-layer/baselines"),
          check "Governance wired into pre-commit"
            (.fileContains ".pre-commit-config.yaml" "scripts/governance/") ],
      step "ai-rules" "AI assistant rules" true
        [ check "Assistant rule file present"
            (.anyFileExists
              ["CLAUDE.md", "AGENTS.md", ".cursorrules", ".github/copilot-instructions.md"]),
          check "Default branch protected" (.branchProtection none true (some 1)),
          check "Handshake issue filed" (.handshakeIssue "[shipcheck:ai-rules]") ] ]

end Readiness.Rulebook
